/-
  PYTHON EXCEPTIONS: the class of an exception decides who catches it.

  `except (A, B):` catches an exception of a listed class or of a class derived from one.  The classes
  are those that the tasks list and those that what they call can raise; of the hierarchy, the part
  below `Exception` that tells them apart.
-/
import ControlPlane.PyStr

namespace ControlPlane

inductive ErrorClass where
  | valueError
  | unicodeEncodeError
  | artifactValidation
  | typeError
  | overflowError
  | runtimeError
  | recursionError
  | artifactConfiguration
  | artifactStorage
  | runpodConfiguration
  | runpodApi
  | runpodTimeout
  | podConfiguration
  | podApi
  | podTimeout
  | osError
  | subprocessError
  /-- `django.db.Error`, which is an `Exception` and nothing else. -/
  | databaseError
  deriving DecidableEq, Repr

/-- The class it is derived from. -/
def ErrorClass.base : ErrorClass → Option ErrorClass
  | .unicodeEncodeError | .artifactValidation => some .valueError
  | .recursionError | .artifactConfiguration | .artifactStorage | .runpodConfiguration | .runpodApi
  | .runpodTimeout | .podConfiguration | .podApi | .podTimeout => some .runtimeError
  | _ => none

/-- An exception and its text.  The texts of Python's own exceptions are left out. -/
structure PyError where
  cls : ErrorClass
  message : PyStr := []
  deriving DecidableEq, Repr

namespace PyError

/-- `isinstance(e, c)`. -/
def isinstance (e : PyError) (c : ErrorClass) : Bool := e.cls = c || e.cls.base = some c

/-- `except (…):` catches it. -/
def caughtBy (e : PyError) (handlers : List ErrorClass) : Bool := handlers.any e.isinstance

/-- What is caught is caught by a longer list. -/
theorem caughtBy_mono {e : PyError} {handlers more : List ErrorClass} (h : handlers ⊆ more)
    (he : e.caughtBy handlers = true) : e.caughtBy more = true := by
  obtain ⟨c, hc, hinst⟩ := List.any_eq_true.mp he
  exact List.any_eq_true.mpr ⟨c, h hc, hinst⟩

end PyError

end ControlPlane
