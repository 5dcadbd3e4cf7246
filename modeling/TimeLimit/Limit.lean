import TimeLimit.TestCase

/-!
# Time limits of a test

The argument that gives a test a time limit, and the marks by which a test that already has one is
known. A test is limited when a mark stands in its header or in its tail; what its body says about
other calls counts for nothing.
-/

namespace TimeLimit

namespace Limit

/-- The name of the argument that sets a limit. -/
def name : Text := "timeout:".toList

/-- The constructor of the value that is a limit. -/
def constructor : Text := "Timeout(".toList

/-- The argument that limits a test to a number of seconds. -/
def argument (seconds : UInt64) : Text :=
  name ++ ' ' :: (constructor ++ "Duration(seconds: ".toList ++ Text.ofNat seconds.toNat ++
    "))".toList)

/-- The words by which a limit is known. -/
def marks : List Text :=
  [name, constructor]

/-- Tells whether a piece of a call sets a time limit. -/
def isSetIn (t : Text) : Bool :=
  marks.any fun m => Text.mentions m t

/-- The argument sets a time limit. -/
theorem isSetIn_append_argument (seconds : UInt64) (s t : Text) :
    isSetIn (s ++ argument seconds ++ t) = true := by
  simp only [isSetIn, marks, List.any_cons, Bool.or_eq_true, Text.mentions_iff]
  exact .inl ⟨s, _, by rw [argument, ← List.append_assoc, List.append_assoc _ _ t]⟩

end Limit

/-- Tells whether a test has a time limit of its own. -/
def TestCase.isLimited (c : TestCase) : Bool :=
  Limit.isSetIn c.header.text || Limit.isSetIn c.tail

/-- Tells whether the test at an extent has a time limit of its own. -/
def Extent.isLimited (source : Text) (e : Extent) : Bool :=
  Limit.isSetIn (e.headerText source) || Limit.isSetIn (e.tailText source)

end TimeLimit
