/-! The text of a span of time. -/

namespace TypeClosure.Report

/-- A quotient with two decimals, the last one rounded. -/
def twoDecimals (n unit : Nat) : String :=
  let hundredths := (n * 100 + unit / 2) / unit
  let rest := toString (hundredths % 100)
  toString (hundredths / 100) ++ "." ++ (if rest.length = 1 then "0" ++ rest else rest)

/-- A number of nanoseconds in the largest unit of which there is one. -/
def elapsed (nanoseconds : Nat) : String :=
  if 1000000000 ≤ nanoseconds then twoDecimals nanoseconds 1000000000 ++ "s"
  else if 1000000 ≤ nanoseconds then twoDecimals nanoseconds 1000000 ++ "ms"
  else if 1000 ≤ nanoseconds then twoDecimals nanoseconds 1000 ++ "µs"
  else twoDecimals nanoseconds 1 ++ "ns"

end TypeClosure.Report
