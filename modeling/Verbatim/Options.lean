/-!
# Options

The one option is the width of a tab stop, which matters to the measure of indentation
only. A width of zero is no width, and stands for the default.
-/

namespace Verbatim

structure Options where
  tabSize : Nat := 8
deriving DecidableEq, Repr

namespace Options

def defaultTabSize : Nat := 8

def maxTabSize : Nat := UInt32.size - 1

def effectiveTabSize (options : Options) : Nat :=
  if options.tabSize = 0 then defaultTabSize else options.tabSize

/-- Options from a recorded tab size, which is a number of 32 bits without a sign. -/
def ofRecord? (tabSize : Int) : Option Options :=
  if 0 ≤ tabSize ∧ tabSize ≤ maxTabSize then some ⟨tabSize.toNat⟩ else none

theorem effectiveTabSize_pos (options : Options) : 0 < options.effectiveTabSize := by
  unfold effectiveTabSize defaultTabSize
  split <;> omega

end Options

end Verbatim
