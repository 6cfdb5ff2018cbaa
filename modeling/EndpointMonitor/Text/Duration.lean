/-!
The text of a span of time.
-/

namespace EndpointMonitor.Text

/-- Digits after a decimal point, without the zeros at their end. -/
def fraction (digits : String) : String :=
  let kept := (digits.toList.reverse.dropWhile (· = '0')).reverse
  if kept.isEmpty then "" else "." ++ String.ofList kept

/-- Three digits. -/
def thousandths (n : Nat) : String :=
  String.ofList ((toString (1000 + n)).toList.drop 1)

/-- A number of milliseconds in the largest unit of which it holds at least one. -/
def duration (ms : Nat) : String :=
  if ms = 0 then "0ns"
  else if ms < 1000 then toString ms ++ "ms"
  else toString (ms / 1000) ++ fraction (thousandths (ms % 1000)) ++ "s"

end EndpointMonitor.Text
