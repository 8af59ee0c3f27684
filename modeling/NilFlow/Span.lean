/-!
# Source positions

Positions are numbered over all files of a program; zero is no position.

* `Pos`: a position. Those in files are positive, but any number can be given.
* `Span`: a stretch of source from a start to a stop position.
* `Span.none`, `Span.known`: the absent span, and whether a span has a start.
-/

namespace NilFlow

abbrev Pos := Int

structure Span where
  start : Pos
  stop : Pos
deriving DecidableEq, Repr, Inhabited

namespace Span

/-- No source at all. -/
def none : Span := ⟨0, 0⟩

def point (p : Pos) : Span := ⟨p, p⟩

/-- Whether the span starts at a position. -/
def known (s : Span) : Bool := s.start ≠ 0

/-- The span itself when it is known, another one otherwise. -/
def orElse (s t : Span) : Span := if s.known then s else t

end Span

end NilFlow
