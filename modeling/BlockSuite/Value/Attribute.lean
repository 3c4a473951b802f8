import BlockSuite.Text.Split
import BlockSuite.Value.Quoted

/-!
The attributes of values that are neither mappings, lists nor plain scalars. Dates, moments and
durations have their parts and limits. They, sets, handles and time zones have methods too, which
are values that can be passed on and shown.
-/

namespace BlockSuite.Value

/-- The words of a text. -/
def words (s : String) : List String := Text.splitAt ' ' s

/-- Methods of every value with attributes. -/
def commonMethods : List String :=
  words "__dir__ __format__ __getstate__ __reduce__ __reduce_ex__ __sizeof__" ++
    words "__init_subclass__ __new__ __subclasshook__"

/-- Operators of every value with attributes. -/
def commonOperators : List String :=
  words "__delattr__ __eq__ __ge__ __getattribute__ __gt__ __hash__ __init__ __le__ __lt__" ++
    words "__ne__ __repr__ __setattr__ __str__"

def dateMethods : List String :=
  words "ctime isocalendar isoformat isoweekday replace strftime timetuple toordinal weekday" ++
    words "fromisocalendar fromisoformat fromordinal fromtimestamp today"

def momentMethods : List String :=
  dateMethods ++ words "astimezone date dst time timestamp timetz tzname utcoffset utctimetuple" ++
    words "combine now strptime utcfromtimestamp utcnow"

def dateOperators : List String := words "__add__ __radd__ __rsub__ __sub__"

def durationOperators : List String :=
  words "__abs__ __add__ __bool__ __divmod__ __floordiv__ __mod__ __mul__ __neg__ __pos__" ++
    words "__radd__ __rdivmod__ __rfloordiv__ __rmod__ __rmul__ __rsub__ __rtruediv__ __sub__" ++
    words "__truediv__"

def setMethods : List String :=
  words "__class_getitem__ __contains__ add clear copy difference difference_update discard" ++
    words "intersection intersection_update isdisjoint issubset issuperset pop remove" ++
    words "symmetric_difference symmetric_difference_update union update"

def setOperators : List String :=
  words "__and__ __iand__ __ior__ __isub__ __iter__ __ixor__ __len__ __or__ __rand__ __ror__" ++
    words "__rsub__ __rxor__ __sub__ __xor__"

def zoneMethods : List String := words "__getinitargs__ dst fromutc tzname utcoffset"

/-- The methods of a value. -/
def methods : Value → List String
  | date _ => commonMethods ++ dateMethods
  | moment _ => commonMethods ++ momentMethods
  | duration _ => commonMethods ++ ["total_seconds"]
  | set _ => commonMethods ++ setMethods
  | inner "timezone" .. => commonMethods ++ zoneMethods
  | _ => commonMethods

/-- The operators of a value. -/
def operators : Value → List String
  | date _ | moment _ => commonOperators ++ dateOperators
  | duration _ => commonOperators ++ durationOperators
  | set _ => commonOperators.erase "__hash__" ++ setOperators
  | handle _ => (commonOperators.erase "__init__").erase "__repr__"
  | _ => commonOperators

/-- The methods that a value has of its own instead of an operator. -/
def ownMethods : Value → List String
  | handle _ => words "__init__ __repr__"
  | _ => []

/-- A type under its full name. -/
def typeNamed (fullName : String) : Value :=
  let shown := "<class '" ++ fullName ++ "'>"
  let (group, name) := match Text.splitAt '.' fullName with
    | [group, name] => (group, name)
    | _ => ("builtins", fullName)
  inner "type" shown shown
    [("__name__", text name), ("__qualname__", text name), ("__module__", text group)]

/-- A method or operator of a value, by the name of the kind it is of. -/
def member (kind name : String) (v : Value) : Value :=
  let shown := "<" ++ kind ++ " " ++ name ++ " of " ++ v.fullTypeName ++ " object>"
  inner kind shown shown
    [("__name__", text name), ("__qualname__", text (v.typeName ++ "." ++ name)),
      ("__self__", v), ("__class__", typeNamed kind)]

/-- The time zone at an offset from universal time. -/
def zone (d : Duration) : Value :=
  inner "timezone"
    (if d.micros = 0 then "UTC" else "UTC" ++ Moment.offsetText d) (Quoted.ofOffset d) []

/-- What the values of a kind are. -/
def description? : Value → Option String
  | date _ => some "date(year, month, day) --> date object"
  | moment _ =>
    some ("datetime(year, month, day[, hour[, minute[, second[, microsecond[,tzinfo]]]]])\n\n" ++
      "The year, month and day arguments are required. tzinfo may be None, or an\n" ++
      "instance of a tzinfo subclass. The remaining arguments may be ints.\n")
  | duration _ =>
    some ("Difference between two datetime values.\n\n" ++
      "timedelta(days=0, seconds=0, microseconds=0, milliseconds=0, minutes=0, hours=0, " ++
      "weeks=0)\n\nAll arguments are optional and default to 0.\n" ++
      "Arguments may be integers or floats, and may be positive or negative.")
  | set _ =>
    some ("set() -> new empty set object\nset(iterable) -> new set object\n\n" ++
      "Build an unordered collection of unique elements.")
  | inner "timezone" .. => some "Fixed offset from UTC implementation of tzinfo."
  | _ => none

/-- The parts and limits of a date. -/
def dateParts (d : Date) : List (String × Value) :=
  [("year", int d.year), ("month", int d.month), ("day", int d.day), ("min", date ⟨1, 1, 1⟩),
    ("max", date ⟨9999, 12, 31⟩), ("resolution", duration ⟨Duration.perDay⟩)]

/-- The parts and limits of a moment. -/
def momentParts (m : Moment) : List (String × Value) :=
  [("year", int m.date.year), ("month", int m.date.month), ("day", int m.date.day),
    ("hour", int m.hour), ("minute", int m.minute), ("second", int m.second),
    ("microsecond", int m.micro), ("fold", int 0), ("tzinfo", (m.offset.map zone).getD null),
    ("min", moment ⟨⟨1, 1, 1⟩, 0, 0, 0, 0, none⟩),
    ("max", moment ⟨⟨9999, 12, 31⟩, 23, 59, 59, 999999, none⟩), ("resolution", duration ⟨1⟩)]

/-- The parts and limits of a duration. -/
def durationParts (d : Duration) : List (String × Value) :=
  [("days", int d.days), ("seconds", int d.seconds), ("microseconds", int d.microseconds),
    ("min", duration (.ofParts (-999999999) 0 0)),
    ("max", duration (.ofParts 999999999 86399 999999)), ("resolution", duration ⟨1⟩)]

/-- The attributes in which values of a kind differ. -/
def parts : Value → List (String × Value)
  | date d => dateParts d
  | moment m => momentParts m
  | duration d => durationParts d
  | handle attributes => attributes ++ [("__dict__", record attributes)]
  | inner "timezone" .. =>
    [("utc", zone ⟨0⟩), ("min", zone ⟨-86340000000⟩), ("max", zone ⟨86340000000⟩)]
  | inner _ _ _ attributes => attributes
  | _ => []

/-- Whether a value has the attributes of things in general. -/
def isThing : Value → Bool
  | date _ | moment _ | duration _ | set _ | handle _ | inner "timezone" .. => true
  | _ => false

/-- An attribute of a value that is neither mapping, list nor plain scalar. -/
def attribute? (v : Value) (name : String) : Option Value :=
  match v.parts.lookup name with
  | some part => some part
  | none =>
    if !v.isThing then none
    else if name == "__class__" then some (typeNamed v.fullTypeName)
    else if name == "__doc__" then v.description?.map text
    else if v.methods.contains name then some (member "builtin_function_or_method" name v)
    else if v.operators.contains name then some (member "method-wrapper" name v)
    else if v.ownMethods.contains name then some (member "method" name v)
    else none

@[simp] theorem attribute?_null (name : String) : null.attribute? name = none := rfl

@[simp] theorem attribute?_text (s name : String) : (text s).attribute? name = none := rfl

end BlockSuite.Value
