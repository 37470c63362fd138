/-!
# Spans of source text

A span is a pair of byte offsets into a source text. Nothing forces the two
offsets to be in order: a span whose end does not lie after its start is empty.
-/

namespace TemplateTyping

/-- A stretch of source text, given by the byte offsets of its two ends. -/
structure Span where
  start : Nat
  stop : Nat
  deriving DecidableEq, Repr, Inhabited

namespace Span

/-- The empty span at the beginning of a text. -/
def origin : Span := ⟨0, 0⟩

/-- Number of bytes covered. -/
def length (s : Span) : Nat := s.stop - s.start

/-- Whether no byte is covered. -/
def isEmpty (s : Span) : Bool := s.length == 0

/-- The least span that reaches over both spans. -/
def join (s t : Span) : Span := ⟨min s.start t.start, max s.stop t.stop⟩

@[simp]
theorem join_start (s t : Span) : (s.join t).start = min s.start t.start := rfl

@[simp]
theorem join_stop (s t : Span) : (s.join t).stop = max s.stop t.stop := rfl

end Span

end TemplateTyping
