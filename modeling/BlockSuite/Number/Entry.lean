import BlockSuite.Number.Read

/-!
Numbers in the texts of documents. Only ASCII digits count, and white space around a number is
ignored. Zeros in front of a whole number and a fraction of zeros behind it make no difference;
single underscores may stand between digits.
-/

namespace BlockSuite.Number

/-- A text without its underscores, of which none stands at an end or beside another. -/
def withoutUnderscores? (cs : List Char) : Option (List Char) :=
  if cs.head? == some '_' || cs.getLast? == some '_' || Text.hasInfix ['_', '_'] cs then none
  else some (cs.filter (· != '_'))

/-- What follows zeros, and underscores among them, up to a digit or sign that counts; before a
point and at the end the last of them is kept. -/
def afterZeros? (last : Char) : List Char → Option (List Char)
  | [] => some [last]
  | c :: rest =>
    if c == '0' || c == '_' then afterZeros? c rest
    else if ('1' ≤ c && c ≤ '9') || c == '-' then some (c :: rest)
    else if c == '.' then some (last :: c :: rest)
    else none

/-- A whole number in text without the zeros in front. -/
def withoutZeros? : List Char → Option (List Char)
  | [] => none
  | c :: rest =>
    if c == '0' then afterZeros? c rest
    else if ('1' ≤ c && c ≤ '9') || c == '-' then some (c :: rest)
    else none

/-- A number in text without a fraction of zeros. -/
def withoutFraction (cs : List Char) : List Char :=
  let fraction := (cs.dropWhile (· != '.')).drop 1
  if !fraction.isEmpty && fraction.all (· == '0') then cs.takeWhile (· != '.') else cs

/-- A sign, if there is one, and ASCII digits. -/
def ofSignedDigits? (cs : List Char) : Option Int :=
  let (negative, ds) := match cs with
    | '-' :: rest => (true, rest)
    | _ => (false, cs)
  if ds.isEmpty || !ds.all (fun c => '0' ≤ c && c ≤ '9') then none
  else
    let n : Int := ofDigits (ds.map (·.toNat - 48))
    some (if negative then -n else n)

/-- Reads a whole number from a document. -/
def readWhole (s : String) : Except IntError Int :=
  let (sign, body) := match Text.trimWhite s.toList with
    | '-' :: rest => (['-'], rest)
    | '+' :: rest => ([], if rest.head? == some '-' then '+' :: rest else rest)
    | cs => ([], cs)
  match withoutZeros? body with
  | none => .error .malformed
  | some body =>
    let body := withoutFraction body
    let cs := sign ++ (withoutUnderscores? body).getD body
    if maxDigits < cs.length then .error (.tooLong cs.length)
    else
      match ofSignedDigits? cs with
      | some i => .ok i
      | none => .error .malformed

/-- Reads a number from a document. White space counts where there are underscores. -/
def readReal? (s : String) : Option Double :=
  (ofDecimal? (Text.trimWhite s.toList)).orElse fun _ =>
    (withoutUnderscores? s.toList).bind ofDecimal?

@[simp] theorem withoutZeros?_nil : withoutZeros? [] = none := rfl

theorem withoutFraction_of_no_point {cs : List Char} (h : ∀ c ∈ cs, c ≠ '.') :
    withoutFraction cs = cs := by
  have hd : cs.dropWhile (· != '.') = [] := by
    induction cs with
    | nil => rfl
    | cons c cs ih => simp [h c, ih fun d hd => h d (by simp [hd])]
  simp [withoutFraction, hd]

end BlockSuite.Number
