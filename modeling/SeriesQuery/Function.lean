/-
Functions of the query language.

Most take one field; four take a number besides.
-/
import SeriesQuery.Fragment

namespace SeriesQuery

/-- The functions of one field. -/
inductive FieldFunction where
  | mean
  | median
  | mode
  | spread
  | stddev
  | sum
  | count
  | distinct
  | integral
  | min
  | max
  | first
  | last
  | derivative
  | difference
  deriving DecidableEq, Repr

/-- The name that a call of the function is written with. -/
def FieldFunction.name : FieldFunction → String
  | mean => "MEAN"
  | median => "MEDIAN"
  | mode => "MODE"
  | spread => "SPREAD"
  | stddev => "STDDEV"
  | sum => "SUM"
  | count => "COUNT"
  | distinct => "DISTINCT"
  | integral => "INTEGRAL"
  | min => "MIN"
  | max => "MAX"
  | first => "FIRST"
  | last => "LAST"
  | derivative => "DERIVATIVE"
  | difference => "DIFFERENCE"

/-- The functions of a field and a number. -/
inductive NumberedFunction where
  | percentile
  | top
  | bottom
  | movingAverage
  deriving DecidableEq, Repr

/-- The name that a call of the function is written with. -/
def NumberedFunction.name : NumberedFunction → String
  | percentile => "PERCENTILE"
  | top => "TOP"
  | bottom => "BOTTOM"
  | movingAverage => "MOVING_AVERAGE"

/-- A function call with an alias that may be given later. -/
structure Call where
  function : String
  args : List Fragment
  aliasName : Option Fragment

namespace Call

/-- The call under an alias, in place of any it had. -/
def aliased (c : Call) (aliasName : Fragment) : Call :=
  { c with aliasName := some aliasName }

/-- The call as a fragment. -/
def fragment (c : Call) : Fragment :=
  .call c.function c.args c.aliasName

/-- The call that groups by a time window. -/
def time (interval : Duration) : Call :=
  ⟨"time", [.raw interval.token], none⟩

/-- The call that groups by a time window shifted by an offset. -/
def timeWithOffset (interval offset : Duration) : Call :=
  ⟨"time", [.raw interval.token, .raw offset.token], none⟩

end Call

/-- The function of a field. -/
def FieldFunction.of (f : FieldFunction) (field : Fragment) : Call :=
  ⟨f.name, [field], none⟩

/-- The function of a field and a number, which is given as text. -/
def NumberedFunction.of (f : NumberedFunction) (field : Fragment) (n : String) : Call :=
  ⟨f.name, [field, .raw n], none⟩

end SeriesQuery
