import StatementEngine.Text.Quoted

/-!
# Names

**Names are plain strings.** They are ordered by code point, which is the order of their UTF-8
bytes.
-/

namespace StatementEngine

/-- The name of a variable, parameter or module. -/
abbrev Name : Type := String

namespace Name

/-- Alphabetical order by code point. -/
def compare (a b : Name) : Ordering := compareOfLessAndEq a b

/-- A name in the form that shows what it is. -/
def describe (n : Name) : String := "Name(" ++ Text.quote n ++ ")"

end Name

end StatementEngine
