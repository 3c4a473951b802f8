import BlockSuite.Json.Writer
import BlockSuite.Number.Read
import BlockSuite.Value.Equal

/-!
Tagged JSON: a form of values in JSON that tells all of them apart. What JSON has no form for is
a mapping with a single member, whose name starts with a dollar sign and says what it stands for.
-/

namespace BlockSuite.Json.Tagged

/-- The bytes that pairs of hexadecimal digits spell. -/
def bytesOfHex : List Char → List UInt8
  | a :: b :: rest =>
    UInt8.ofNat ((Text.hexValue? a).getD 0 * 16 + (Text.hexValue? b).getD 0) :: bytesOfHex rest
  | _ => []

/-- Two hexadecimal digits for each byte. -/
def hexOfBytes (bs : List UInt8) : String := String.join (bs.map fun b => hexText 2 b.toNat)

/-- The whole number that a sign and digits of any number spell. -/
def wholeOf (s : String) : Int :=
  let (negative, ds) := Number.takeSign s.toList
  let n : Int := Number.ofDigits (ds.map (·.toNat - 48))
  if negative then -n else n

/-- What a tag and its value stand for; an unknown tag is a name like any other. -/
def untag (tag : String) (v : Value) : Value :=
  match tag, v with
  | "$float", .text s => .float ((Number.readDouble? s).getD .nan)
  | "$int", .text s => .int (wholeOf s)
  | "$bytes", .text s => .bytes (bytesOfHex s.toList)
  | "$date", .text s => ((Calendar.readDate? s).map Value.date).getD .null
  | "$datetime", .text s => ((Calendar.readMoment? s).map Value.moment).getD .null
  | "$timedelta", .list [.int d, .int s, .int u] => .duration (.ofParts d s u)
  | "$tuple", .list xs => .tuple xs
  | "$set", .list xs => Value.setOf xs
  | "$map", .list xs =>
    Value.mappingOf (xs.filterMap fun
      | .list [a, b] => some (a, b)
      | _ => none)
  | "$obj", .dict es =>
    .handle (es.filterMap fun e => match e.1 with
      | .text k => some (k, e.2)
      | _ => none)
  | tag, v => .dict [(.text tag, v)]

mutual

/-- The value that tagged JSON stands for. -/
def decode : Value → Value
  | .list xs => .list (decodeAll xs)
  | .dict es =>
    match decodeEntries es with
    | [(.text tag, v)] => untag tag v
    | es => .dict es
  | v => v

def decodeAll : List Value → List Value
  | [] => []
  | x :: xs => decode x :: decodeAll xs

def decodeEntries : List (Value × Value) → List (Value × Value)
  | [] => []
  | (k, v) :: rest => (k, decode v) :: decodeEntries rest

end

/-- Whether a mapping can be written without a tag. -/
def isPlain (es : List (Value × Value)) : Bool :=
  es.all fun e =>
    match e.1 with
    | .text k => k.toList.head? != some '$'
    | _ => false

/-- A value under a tag. -/
def tagged (tag : String) (v : Value) : Value := .record [(tag, v)]

/-- Items in the order of their JSON. -/
def sorted (xs : List Value) : List Value :=
  sortByText (xs.map fun x => ((write .compact 0 x).toOption.getD "", x))

mutual

/-- A value as tagged JSON. -/
def encode : Value → Value
  | .float d => tagged "$float" (.text d.render)
  | .int i => if i.natAbs < 0x20000000000000 then .int i else tagged "$int" (.text (toString i))
  | .bytes bs => tagged "$bytes" (.text (hexOfBytes bs))
  | .date d => tagged "$date" (.text d.text)
  | .moment m => tagged "$datetime" (.text m.isoText)
  | .duration d =>
    tagged "$timedelta" (.list [.int d.days, .int d.seconds, .int d.microseconds])
  | .list xs => .list (encodeAll xs)
  | .tuple xs => tagged "$tuple" (.list (encodeAll xs))
  | .set xs => tagged "$set" (.list (sorted (encodeAll xs)))
  | .dict es =>
    if isPlain es then .dict (encodeValues es) else tagged "$map" (.list (encodeEntries es))
  | .handle attributes => tagged "$obj" (.record (encodeAttributes attributes))
  | .inner kind .. => tagged "$object" (.text kind)
  | v => v

def encodeAll : List Value → List Value
  | [] => []
  | x :: xs => encode x :: encodeAll xs

def encodeValues : List (Value × Value) → List (Value × Value)
  | [] => []
  | (k, v) :: rest => (k, encode v) :: encodeValues rest

def encodeEntries : List (Value × Value) → List Value
  | [] => []
  | (k, v) :: rest => .list [encode k, encode v] :: encodeEntries rest

def encodeAttributes : List (String × Value) → List (String × Value)
  | [] => []
  | (k, v) :: rest => (k, encode v) :: encodeAttributes rest

end

@[simp] theorem decode_text (s : String) : decode (.text s) = .text s := by simp [decode]

@[simp] theorem encode_text (s : String) : encode (.text s) = .text s := by simp [encode]

end BlockSuite.Json.Tagged
