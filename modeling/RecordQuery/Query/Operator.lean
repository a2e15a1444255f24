import RecordQuery.Text.Lowercase
import RecordQuery.Text.Numeral

namespace RecordQuery

inductive Arity where
  | unary
  | exactly (count : Nat)
  | atLeastOne
  | any
  deriving DecidableEq, Repr

namespace Arity

def accepts (arity : Arity) (count : Nat) : Bool :=
  match arity with
  | .unary | .any => true
  | .exactly n => count == n
  | .atLeastOne => 1 ≤ count

def text : Arity → String
  | .unary => "0"
  | .exactly n => Text.natText n
  | .atLeastOne => "at least 1"
  | .any => "any number of"

end Arity

inductive Comparison where
  | equal
  | notEqual
  | greater
  | greaterEqual
  | less
  | lessEqual
  deriving DecidableEq, Repr

def Comparison.holds (comparison : Comparison) (order : Ordering) : Bool :=
  match comparison with
  | .equal => order == .eq
  | .notEqual => order != .eq
  | .greater => order == .gt
  | .greaterEqual => order != .lt
  | .less => order == .lt
  | .lessEqual => order != .gt

inductive TextForm where
  | like
  | beginsWith
  | contains
  | endsWith
  deriving DecidableEq, Repr

inductive Turn where
  | last
  | this
  | next
  deriving DecidableEq, Repr

inductive Direction where
  | last
  | next
  deriving DecidableEq, Repr

inductive CalendarUnit where
  | week
  | month
  | year
  deriving DecidableEq, Repr

inductive SpanUnit where
  | hours
  | days
  | weeks
  | months
  | years
  deriving DecidableEq, Repr

inductive AgeUnit where
  | minutes
  | span (unit : SpanUnit)
  deriving DecidableEq, Repr

inductive FiscalUnit where
  | year
  | period
  deriving DecidableEq, Repr

inductive FiscalReach where
  | within
  | orBefore
  | orAfter
  deriving DecidableEq, Repr

inductive CallerId where
  | user
  | businessUnit
  deriving DecidableEq, Repr

inductive Kinship where
  | above
  | aboveOrEqual
  | under
  | underOrEqual
  | notUnder
  deriving DecidableEq, Repr

inductive Operator where
  | compare (comparison : Comparison)
  | text (form : TextForm) (negated : Bool)
  | oneOf (negated : Bool)
  | between (negated : Bool)
  | null (negated : Bool)
  | on (negated : Bool)
  | onOrAfter
  | onOrBefore
  | day (turn : Turn)
  | sevenDays (direction : Direction)
  | calendar (turn : Turn) (unit : CalendarUnit)
  | span (direction : Direction) (unit : SpanUnit)
  | olderThan (unit : AgeUnit)
  | caller (id : CallerId) (negated : Bool)
  | fiscal (turn : Turn) (unit : FiscalUnit)
  | fiscalSpan (direction : Direction) (unit : FiscalUnit)
  | inFiscalYear
  | inFiscalPeriod
  | fiscalPeriodAndYear (reach : FiscalReach)
  | kin (kinship : Kinship)
  | containValues (negated : Bool)
  deriving DecidableEq, Repr

namespace Operator

def arity : Operator → Arity
  | .compare .equal | .compare .notEqual => .atLeastOne
  | .compare _ => .exactly 1
  | .text _ _ => .exactly 1
  | .oneOf _ => .any
  | .between _ => .exactly 2
  | .null _ => .unary
  | .on _ | .onOrAfter | .onOrBefore => .exactly 1
  | .day _ | .sevenDays _ | .calendar _ _ => .unary
  | .span _ _ | .olderThan _ => .exactly 1
  | .caller _ _ => .unary
  | .fiscal _ _ => .unary
  | .fiscalSpan _ _ | .inFiscalYear | .inFiscalPeriod => .exactly 1
  | .fiscalPeriodAndYear _ => .exactly 2
  | .kin _ => .exactly 1
  | .containValues _ => .any

def isFiscal : Operator → Bool
  | .fiscal _ _ | .fiscalSpan _ _ | .inFiscalYear | .inFiscalPeriod | .fiscalPeriodAndYear _ => true
  | _ => false

def isDate : Operator → Bool
  | .on _ | .onOrAfter | .onOrBefore | .day _ | .sevenDays _ | .calendar _ _ | .span _ _
  | .olderThan _ => true
  | operator => operator.isFiscal

def isHierarchy : Operator → Bool
  | .kin _ => true
  | _ => false

def comparesColumns : Operator → Bool
  | .compare _ => true
  | _ => false

end Operator

def Turn.title : Turn → String
  | .last => "Last"
  | .this => "This"
  | .next => "Next"

def Turn.word : Turn → String
  | .last => "last"
  | .this => "this"
  | .next => "next"

def Direction.title : Direction → String
  | .last => "Last"
  | .next => "Next"

def Direction.word : Direction → String
  | .last => "last"
  | .next => "next"

def CalendarUnit.title : CalendarUnit → String
  | .week => "Week"
  | .month => "Month"
  | .year => "Year"

def CalendarUnit.word : CalendarUnit → String
  | .week => "week"
  | .month => "month"
  | .year => "year"

def SpanUnit.title : SpanUnit → String
  | .hours => "Hours"
  | .days => "Days"
  | .weeks => "Weeks"
  | .months => "Months"
  | .years => "Years"

def SpanUnit.word : SpanUnit → String
  | .hours => "hours"
  | .days => "days"
  | .weeks => "weeks"
  | .months => "months"
  | .years => "years"

def AgeUnit.title : AgeUnit → String
  | .minutes => "Minutes"
  | .span unit => unit.title

def AgeUnit.word : AgeUnit → String
  | .minutes => "minutes"
  | .span unit => unit.word

def FiscalUnit.title : FiscalUnit → String
  | .year => "Year"
  | .period => "Period"

def FiscalUnit.word : FiscalUnit → String
  | .year => "year"
  | .period => "period"

namespace Operator

def name : Operator → String
  | .compare .equal => "Equal"
  | .compare .notEqual => "NotEqual"
  | .compare .greater => "GreaterThan"
  | .compare .greaterEqual => "GreaterEqual"
  | .compare .less => "LessThan"
  | .compare .lessEqual => "LessEqual"
  | .text .like false => "Like"
  | .text .like true => "NotLike"
  | .text .beginsWith false => "BeginsWith"
  | .text .beginsWith true => "DoesNotBeginWith"
  | .text .contains false => "Contains"
  | .text .contains true => "DoesNotContain"
  | .text .endsWith false => "EndsWith"
  | .text .endsWith true => "DoesNotEndWith"
  | .oneOf false => "In"
  | .oneOf true => "NotIn"
  | .between false => "Between"
  | .between true => "NotBetween"
  | .null false => "Null"
  | .null true => "NotNull"
  | .on false => "On"
  | .on true => "NotOn"
  | .onOrAfter => "OnOrAfter"
  | .onOrBefore => "OnOrBefore"
  | .day .last => "Yesterday"
  | .day .this => "Today"
  | .day .next => "Tomorrow"
  | .sevenDays direction => direction.title ++ "7Days"
  | .calendar turn unit => turn.title ++ unit.title
  | .span direction unit => direction.title ++ "X" ++ unit.title
  | .olderThan unit => "OlderThanX" ++ unit.title
  | .caller .user false => "EqualUserId"
  | .caller .user true => "NotEqualUserId"
  | .caller .businessUnit false => "EqualBusinessId"
  | .caller .businessUnit true => "NotEqualBusinessId"
  | .fiscal turn unit => turn.title ++ "Fiscal" ++ unit.title
  | .fiscalSpan direction unit => direction.title ++ "XFiscal" ++ unit.title ++ "s"
  | .inFiscalYear => "InFiscalYear"
  | .inFiscalPeriod => "InFiscalPeriod"
  | .fiscalPeriodAndYear .within => "InFiscalPeriodAndYear"
  | .fiscalPeriodAndYear .orBefore => "InOrBeforeFiscalPeriodAndYear"
  | .fiscalPeriodAndYear .orAfter => "InOrAfterFiscalPeriodAndYear"
  | .kin .above => "Above"
  | .kin .aboveOrEqual => "AboveOrEqual"
  | .kin .under => "Under"
  | .kin .underOrEqual => "UnderOrEqual"
  | .kin .notUnder => "NotUnder"
  | .containValues false => "ContainValues"
  | .containValues true => "DoesNotContainValues"

def keyword? : Operator → Option String
  | .compare .equal => "eq"
  | .compare .notEqual => "ne"
  | .compare .greater => "gt"
  | .compare .greaterEqual => "ge"
  | .compare .less => "lt"
  | .compare .lessEqual => "le"
  | .text .like false => "like"
  | .text .like true => "not-like"
  | .text .beginsWith false => "begins-with"
  | .text .beginsWith true => "not-begin-with"
  | .text .contains _ => none
  | .text .endsWith false => "ends-with"
  | .text .endsWith true => "not-end-with"
  | .oneOf false => "in"
  | .oneOf true => "not-in"
  | .between false => "between"
  | .between true => "not-between"
  | .null false => "null"
  | .null true => "not-null"
  | .on false => "on"
  | .on true => "not-on"
  | .onOrAfter => "on-or-after"
  | .onOrBefore => "on-or-before"
  | .day .last => "yesterday"
  | .day .this => "today"
  | .day .next => "tomorrow"
  | .sevenDays direction => direction.word ++ "-seven-days"
  | .calendar turn unit => turn.word ++ "-" ++ unit.word
  | .span direction unit => direction.word ++ "-x-" ++ unit.word
  | .olderThan unit => "olderthan-x-" ++ unit.word
  | .caller .user false => "eq-userid"
  | .caller .user true => "ne-userid"
  | .caller .businessUnit false => "eq-businessid"
  | .caller .businessUnit true => "ne-businessid"
  | .fiscal turn unit => turn.word ++ "-fiscal-" ++ unit.word
  | .fiscalSpan direction unit => direction.word ++ "-x-fiscal-" ++ unit.word ++ "s"
  | .inFiscalYear => "in-fiscal-year"
  | .inFiscalPeriod => "in-fiscal-period"
  | .fiscalPeriodAndYear .within => "in-fiscal-period-and-year"
  | .fiscalPeriodAndYear .orBefore => "in-or-before-fiscal-period-and-year"
  | .fiscalPeriodAndYear .orAfter => "in-or-after-fiscal-period-and-year"
  | .kin .above => "above"
  | .kin .aboveOrEqual => "eq-or-above"
  | .kin .under => "under"
  | .kin .underOrEqual => "eq-or-under"
  | .kin .notUnder => "not-under"
  | .containValues false => "contain-values"
  | .containValues true => "not-contain-values"

def bothSigns (make : Bool → Operator) : List Operator :=
  [make false, make true]

def spanUnits : List SpanUnit :=
  [.hours, .days, .weeks, .months, .years]

def all : List Operator :=
  [Comparison.equal, .notEqual, .greater, .greaterEqual, .less, .lessEqual].map .compare ++
  [TextForm.like, .beginsWith, .contains, .endsWith].flatMap (fun form => bothSigns (.text form)) ++
  [.oneOf, .between, .null, .on, .caller .user, .caller .businessUnit, .containValues].flatMap
    bothSigns ++
  [.onOrAfter, .onOrBefore] ++
  [Turn.last, .this, .next].flatMap (fun turn =>
    .day turn :: [CalendarUnit.week, .month, .year].map (.calendar turn) ++
      [FiscalUnit.year, .period].map (.fiscal turn)) ++
  [Direction.last, .next].flatMap (fun direction =>
    .sevenDays direction :: spanUnits.map (.span direction) ++
      [FiscalUnit.year, .period].map (.fiscalSpan direction)) ++
  .olderThan .minutes :: spanUnits.map (fun unit => .olderThan (.span unit)) ++
  [.inFiscalYear, .inFiscalPeriod] ++
  [FiscalReach.within, .orBefore, .orAfter].map .fiscalPeriodAndYear ++
  [Kinship.above, .aboveOrEqual, .under, .underOrEqual, .notUnder].map .kin

def ofName? (name : String) : Option Operator :=
  all.find? (·.name == name)

def ofKeyword? (keyword : String) : Option Operator :=
  let lowered := Text.lowercaseASCII keyword
  if lowered = "neq" then some (.compare .notEqual)
  else all.find? (·.keyword? == some lowered)

theorem mem_all : (operator : Operator) → operator ∈ all
  | .compare comparison => by cases comparison <;> decide
  | .text form negated => by cases form <;> cases negated <;> decide
  | .caller id negated => by cases id <;> cases negated <;> decide
  | .oneOf negated | .between negated | .null negated | .on negated | .containValues negated => by
    cases negated <;> decide
  | .onOrAfter | .onOrBefore | .inFiscalYear | .inFiscalPeriod => by decide
  | .day turn => by cases turn <;> decide
  | .sevenDays direction => by cases direction <;> decide
  | .calendar turn unit => by cases turn <;> cases unit <;> decide
  | .span direction unit => by cases direction <;> cases unit <;> decide
  | .olderThan .minutes => by decide
  | .olderThan (.span unit) => by cases unit <;> decide
  | .fiscal turn unit => by cases turn <;> cases unit <;> decide
  | .fiscalSpan direction unit => by cases direction <;> cases unit <;> decide
  | .fiscalPeriodAndYear reach => by cases reach <;> decide
  | .kin kinship => by cases kinship <;> decide

end Operator

end RecordQuery
