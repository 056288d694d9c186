/-!
# Spans of time

* `Span` — a span of time in whole milliseconds.
* `Span.seconds` — its whole seconds.
* `Span.text` — the text shown for it.
-/

namespace SealedTunnel

/-- A span of time. -/
structure Span where
  /-- how many milliseconds it lasts -/
  millis : Nat
  deriving DecidableEq, Repr

namespace Span

/-- So many seconds. -/
def ofSeconds (n : Nat) : Span := ⟨n * 1000⟩

/-- The whole seconds of a span. -/
def seconds (s : Span) : Nat := s.millis / 1000

/-- The last `width` decimal digits of `n`, without zeros at the end. -/
def decimals : (width n : Nat) → String
  | 0, _ => ""
  | width + 1, n =>
    if n = 0 then "" else toString (n / 10 ^ width) ++ decimals width (n % 10 ^ width)

/-- A span in seconds, or in milliseconds if it is shorter than a second. -/
def text (s : Span) : String :=
  let part := s.millis % 1000
  if s.millis = 0 then "0ns"
  else if s.seconds = 0 then toString s.millis ++ "ms"
  else if part = 0 then toString s.seconds ++ "s"
  else toString s.seconds ++ "." ++ decimals 3 part ++ "s"

end Span

end SealedTunnel
