/-!
# Durations

Spans of time in whole milliseconds, and the text of a span in a message: seconds with as many
decimals as it takes from one second on, milliseconds below, and `0ns` for no time at all.
-/

namespace EventWorker

structure Duration where
  millis : Nat
  deriving DecidableEq, Inhabited

namespace Duration

def ofSeconds (n : Nat) : Duration :=
  ⟨n * 1000⟩

/-- Whole seconds, rounded down. -/
def seconds (d : Duration) : Nat :=
  d.millis / 1000

@[simp] theorem seconds_ofSeconds (n : Nat) : (ofSeconds n).seconds = n := by
  simp [ofSeconds, seconds]

/-- The decimals of a number of thousandths, without zeros at the end. -/
def decimals (n : Nat) : List Char :=
  if n % 1000 = 0 then []
  else
    let digits := [n / 100 % 10, n / 10 % 10, n % 10].map Nat.digitChar
    '.' :: (digits.reverse.dropWhile (· = '0')).reverse

def toText (d : Duration) : String :=
  if d.millis = 0 then "0ns"
  else if d.millis < 1000 then toString d.millis ++ "ms"
  else toString d.seconds ++ String.ofList (decimals (d.millis % 1000)) ++ "s"

/-- The duration in seconds with two decimals. -/
def toHundredths (d : Duration) : String :=
  let n := (d.millis + 5) / 10
  toString (n / 100) ++ "." ++ String.ofList [Nat.digitChar (n / 10 % 10), Nat.digitChar (n % 10)] ++
    "s"

end Duration

end EventWorker
