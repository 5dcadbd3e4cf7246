import TimeLimit.NameSet

/-!
# Budgets

A budget says how many seconds a test may take. Test files that use the network are known by their
names and get a budget of their own.
-/

namespace TimeLimit

/-- The class of a test file. -/
inductive FileClass where
  | ordinary
  | network
  deriving DecidableEq, Repr

/-- The word for a class in reports. -/
def FileClass.name : FileClass → Text
  | ordinary => "default".toList
  | network => "network".toList

/-- The seconds for each class of test files, and the names of the network ones. -/
structure Budget where
  ordinarySeconds : UInt64 := 5
  networkSeconds : UInt64 := 10
  networkFiles : NameSet :=
    .ofList ["discovery_test.dart".toList, "zonegroupstate_test.dart".toList]
  deriving DecidableEq

namespace Budget

/-- The class of a file with a name. Only the whole name counts. -/
def classOf (b : Budget) (name : Text) : FileClass :=
  if name ∈ b.networkFiles then .network else .ordinary

/-- The seconds for a class. -/
def secondsFor (b : Budget) : FileClass → UInt64
  | .ordinary => b.ordinarySeconds
  | .network => b.networkSeconds

end Budget

end TimeLimit
