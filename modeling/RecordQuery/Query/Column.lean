import RecordQuery.Text.Lowercase

namespace RecordQuery

inductive AggregateFunction where
  | count
  | countColumn
  | sum
  | avg
  | min
  | max
  deriving DecidableEq, Repr

namespace AggregateFunction

def all : List AggregateFunction := [count, countColumn, sum, avg, min, max]

def name : AggregateFunction → String
  | .count => "Count"
  | .countColumn => "CountColumn"
  | .sum => "Sum"
  | .avg => "Avg"
  | .min => "Min"
  | .max => "Max"

def keyword : AggregateFunction → String
  | .count => "count"
  | .countColumn => "countcolumn"
  | .sum => "sum"
  | .avg => "avg"
  | .min => "min"
  | .max => "max"

def ofName? (name : String) : Option AggregateFunction :=
  all.find? (·.name == name)

def ofKeyword? (keyword : String) : Option AggregateFunction :=
  all.find? (·.keyword == Text.lowercaseASCII keyword)

end AggregateFunction

inductive DateGrouping where
  | day
  | week
  | month
  | quarter
  | year
  deriving DecidableEq, Repr

namespace DateGrouping

def all : List DateGrouping := [day, week, month, quarter, year]

def name : DateGrouping → String
  | .day => "Day"
  | .week => "Week"
  | .month => "Month"
  | .quarter => "Quarter"
  | .year => "Year"

def keyword : DateGrouping → String
  | .day => "day"
  | .week => "week"
  | .month => "month"
  | .quarter => "quarter"
  | .year => "year"

def ofName? (name : String) : Option DateGrouping :=
  all.find? (·.name == name)

def ofKeyword? (keyword : String) : Option DateGrouping :=
  all.find? (·.keyword == Text.lowercaseASCII keyword)

end DateGrouping

structure Column where
  name : String
  alias? : Option String
  aggregate? : Option AggregateFunction
  groupBy : Bool
  dateGrouping? : Option DateGrouping
  distinct : Bool
  deriving DecidableEq, Repr

def Column.named (name : String) : Column := ⟨name, none, none, false, none, false⟩

inductive ColumnSet where
  | all
  | none
  | columns (listed : List Column)
  deriving DecidableEq, Repr

def ColumnSet.explicit : ColumnSet → List Column
  | .columns listed => listed
  | _ => []

structure OrderBy where
  column : String
  alias? : Option String
  descending : Bool
  deriving DecidableEq, Repr

structure Paging where
  count? : Option Nat
  page? : Option Nat
  totalCount : Bool
  deriving DecidableEq, Repr

namespace Paging

def whole : Paging := ⟨none, none, false⟩

def isRequested (paging : Paging) : Bool :=
  paging.count?.isSome || paging.page?.isSome

end Paging

end RecordQuery
