/-!
# Source positions
-/

namespace StackLowering

/-- A stretch of source text: the line and column where it starts, and its length. -/
structure Span where
  /-- Line number. -/
  line : UInt32 := 0
  /-- Column number. -/
  col : UInt32 := 0
  /-- Number of characters. -/
  len : UInt32 := 0
deriving DecidableEq, Inhabited, Repr

namespace Span

/-- The position of what has no place in the source. -/
def nowhere : Span := {}

/-- The empty stretch at a position. -/
def point (line col : UInt32) : Span := ⟨line, col, 0⟩

/-- Whether the stretch holds no character. -/
def isEmpty (s : Span) : Bool := s.len == 0

/-- A position is shown as line and column. -/
def text (s : Span) : String := s!"{s.line}:{s.col}"

end Span

end StackLowering
