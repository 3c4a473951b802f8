/-!
Faults: what goes wrong in a computation on values, as opposed to a failure of a step. Each kind
has a label, under which reports name it.
-/

namespace BlockSuite

/-- Kinds of faults. -/
inductive FaultKind where
  | value
  | type
  | key
  | index
  | attribute
  | runtime
  | overflow
  | zeroDivision
  | system
  | loading
  | warning
deriving DecidableEq, Repr, Inhabited

/-- The name of a kind in reports. -/
def FaultKind.label : FaultKind → String
  | .value => "ValueError"
  | .type => "TypeError"
  | .key => "KeyError"
  | .index => "IndexError"
  | .attribute => "AttributeError"
  | .runtime => "RuntimeError"
  | .overflow => "OverflowError"
  | .zeroDivision => "ZeroDivisionError"
  | .system => "OSError"
  | .loading => "ImportError"
  | .warning => "PluginWarning"

/-- All kinds. -/
def FaultKind.every : List FaultKind :=
  [.value, .type, .key, .index, .attribute, .runtime, .overflow, .zeroDivision, .system, .loading,
    .warning]

/-- A fault and what is said about it. -/
structure Fault where
  kind : FaultKind
  message : String
deriving DecidableEq, Repr, Inhabited

namespace Fault

def value (message : String) : Fault := ⟨.value, message⟩

def type (message : String) : Fault := ⟨.type, message⟩

def overflow (message : String) : Fault := ⟨.overflow, message⟩

/-- A whole number has too many digits to be written. -/
def tooManyDigits : Fault :=
  .value ("Exceeds the limit (4300 digits) for integer string conversion; " ++
    "use sys.set_int_max_str_digits() to increase the limit")

/-- A text has too many digits to be read as a whole number. -/
def tooManyDigitsIn (digits : Nat) : Fault :=
  .value ("Exceeds the limit (4300 digits) for integer string conversion: value has " ++
    Nat.repr digits ++ " digits; use sys.set_int_max_str_digits() to increase the limit")

end Fault

end BlockSuite
