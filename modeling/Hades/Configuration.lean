import Mathlib.Data.Rat.Defs
import Mathlib.Tactic.Common

/-!
# Configuration

The per-test configuration and the suite entry (`Configuration.h`). A `std::string` is the
list of its bytes, each byte the character of that code; a `double` is the rational it
stands for. The default value of a structure is the value-initialised one of the source.
-/

namespace Hades.Runtime

/-- A `std::string`, byte by byte. -/
abbrev Text := List Char

/-- A statement about the characters of a text is decided on this text, and not for every
character there is. -/
instance decidableForallMem {p : Char → Prop} [DecidablePred p] (text : Text) :
    Decidable (∀ c ∈ text, p c) :=
  List.decidableBAll p text

/-- The equality test of texts is equality. -/
instance : LawfulBEq Text :=
  inferInstanceAs (LawfulBEq (List Char))

/-- The clock behind a test. -/
inductive ChronoBackend where
  | Rdtsc
  | SteadyClock
  deriving DecidableEq, Repr

/-- What a test is about: a full measurement, or a single execution. -/
inductive TestKind where
  | Performance
  | Correctness
  deriving DecidableEq, Repr

/-- The configuration of one test. A zero knob means "derived by calibration". -/
structure Config where
  m_Id : Text := []
  m_Kind : TestKind := .Performance
  m_Iterations : UInt64 := 0
  m_ChronoBackend : ChronoBackend := .SteadyClock
  m_WarmupCount : UInt32 := 0
  m_CvThreshold : ℚ := 0
  m_MinSlices : UInt32 := 0
  m_MaxSlices : UInt32 := 0
  m_ConsecutiveDiscardCap : UInt32 := 0
  m_TotalDiscardCap : UInt32 := 0
  m_HelperThreadCount : UInt32 := 0
  m_ReadCriticality : ℚ := 0
  m_FixedSliceCount : UInt32 := 0
  deriving DecidableEq

/-- One `[[test]]` entry: the fixture's name and the test's configuration. -/
structure SuiteTestEntry where
  m_FixtureName : Text := []
  m_Config : Config := {}
  deriving DecidableEq

end Hades.Runtime
