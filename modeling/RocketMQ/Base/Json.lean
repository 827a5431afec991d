import RocketMQ.Base.Decimal

/-!
# JSON texts

General library: JSON values, a reader that accepts the JSON grammar and nothing else, and a
writer that puts strings between quotes as they are. Texts are bytes; a string may hold any
bytes from 128 up, and its escapes are read as UTF-8.
-/

namespace RocketMQ.Base

/-- A JSON value. Integers are told from other numbers, which keep their text; members keep
their order. -/
inductive Json where
  | null
  | bool (b : Bool)
  | int (n : Int)
  | decimal (token : List UInt8)
  | string (s : List UInt8)
  | array (elements : List Json)
  | object (members : List (List UInt8 × Json))

namespace Json

abbrev quote : UInt8 := 34
abbrev backslash : UInt8 := 92
abbrev comma : UInt8 := 44
abbrev colon : UInt8 := 58
abbrev openBracket : UInt8 := 91
abbrev closeBracket : UInt8 := 93
abbrev openBrace : UInt8 := 123
abbrev closeBrace : UInt8 := 125

/-! ### Reading -/

/-- Insignificant whitespace. -/
def isSpace (b : UInt8) : Bool := b == 32 || b == 9 || b == 10 || b == 13

/-- Skip whitespace and one token of a single byte. -/
def expect (c : UInt8) (t : List UInt8) : Option (List UInt8) :=
  match t.dropWhile isSpace with
  | [] => none
  | b :: t => if b = c then some t else none

/-- A code point in UTF-8. -/
def utf8 (n : Nat) : List UInt8 :=
  if n < 0x80 then [.ofNat n]
  else if n < 0x800 then [.ofNat (0xc0 + n / 0x40), .ofNat (0x80 + n % 0x40)]
  else if n < 0x10000 then
    [.ofNat (0xe0 + n / 0x1000), .ofNat (0x80 + n / 0x40 % 0x40), .ofNat (0x80 + n % 0x40)]
  else
    [.ofNat (0xf0 + n / 0x40000), .ofNat (0x80 + n / 0x1000 % 0x40),
      .ofNat (0x80 + n / 0x40 % 0x40), .ofNat (0x80 + n % 0x40)]

def hexDigit (b : UInt8) : Option Nat :=
  if isDigit b then some (b.toNat - 48)
  else if 65 ≤ b ∧ b ≤ 70 then some (b.toNat - 55)
  else if 97 ≤ b ∧ b ≤ 102 then some (b.toNat - 87)
  else none

def hex4 (a b c d : UInt8) : Option Nat := do
  return 0x1000 * (← hexDigit a) + 0x100 * (← hexDigit b) + 0x10 * (← hexDigit c) + (← hexDigit d)

/-- The second half of a surrogate pair. -/
def readLowSurrogate (high : Nat) : List UInt8 → Option (List UInt8 × List UInt8)
  | s :: u :: a :: b :: c :: d :: t => do
    let low ← hex4 a b c d
    if s = backslash ∧ u = 117 ∧ 0xdc00 ≤ low ∧ low ≤ 0xdfff then
      some (utf8 (0x10000 + (high - 0xd800) * 0x400 + (low - 0xdc00)), t)
    else none
  | _ => none

/-- Four hexadecimal digits after `\u`. Half a surrogate pair stands for no character. -/
def readUnicode : List UInt8 → Option (List UInt8 × List UInt8)
  | a :: b :: c :: d :: t => do
    let n ← hex4 a b c d
    if n < 0xd800 ∨ 0xdfff < n then some (utf8 n, t)
    else if n < 0xdc00 then readLowSurrogate n t
    else none
  | _ => none

/-- What a single character stands for after a backslash. -/
def escapeOf (e : UInt8) : Option UInt8 :=
  if e = quote ∨ e = backslash ∨ e = 47 then some e
  else if e = 98 then some 8
  else if e = 102 then some 12
  else if e = 110 then some 10
  else if e = 114 then some 13
  else if e = 116 then some 9
  else none

/-- What follows a backslash. -/
def readEscape : List UInt8 → Option (List UInt8 × List UInt8)
  | [] => none
  | e :: t => if e = 117 then readUnicode t else (escapeOf e).map fun b ↦ ([b], t)

/-- A string from after its opening quote to its closing one. -/
def readChars : Nat → List UInt8 → Option (List UInt8 × List UInt8)
  | 0, _ => none
  | _ + 1, [] => none
  | fuel + 1, c :: t =>
    if c = quote then some ([], t)
    else if c = backslash then do
      let (s, t) ← readEscape t
      let (s', t) ← readChars fuel t
      some (s ++ s', t)
    else if c < 32 then none
    else do
      let (s, t) ← readChars fuel t
      some (c :: s, t)

def readString (t : List UInt8) : Option (List UInt8 × List UInt8) := readChars (t.length + 1) t

/-- The digits before a fraction, without a leading zero unless they are one. -/
def readUnsigned (t : List UInt8) : Option (List UInt8 × List UInt8) :=
  let ds := t.takeWhile isDigit
  if ds = [] ∨ ds.head? = some 48 ∧ ds ≠ [48] then none else some (ds, t.dropWhile isDigit)

/-- Digits that have to be there. -/
def skipDigits (t : List UInt8) : Option (List UInt8) :=
  if (t.takeWhile isDigit).isEmpty then none else some (t.dropWhile isDigit)

def readFraction : List UInt8 → Option (List UInt8)
  | [] => some []
  | c :: t => if c = 46 then skipDigits t else some (c :: t)

def skipSign : List UInt8 → List UInt8
  | [] => []
  | c :: t => if c = 43 ∨ c = 45 then t else c :: t

def readExponent : List UInt8 → Option (List UInt8)
  | [] => some []
  | c :: t => if c = 101 ∨ c = 69 then skipDigits (skipSign t) else some (c :: t)

def readNumber (t : List UInt8) : Option (Json × List UInt8) := do
  let (ds, t') ← readUnsigned (if t.head? = some 45 then t.tail else t)
  let t'' ← readExponent (← readFraction t')
  if t''.length = t'.length then
    let n : Int := digitsValue ds
    some (.int (if t.head? = some 45 then -n else n), t')
  else some (.decimal (t.take (t.length - t''.length)), t'')

/-- One of the three names, or a number. -/
def readLiteral (t : List UInt8) : Option (Json × List UInt8) :=
  if [110, 117, 108, 108].isPrefixOf t then some (.null, t.drop 4)
  else if [116, 114, 117, 101].isPrefixOf t then some (.bool true, t.drop 4)
  else if [102, 97, 108, 115, 101].isPrefixOf t then some (.bool false, t.drop 5)
  else readNumber t

mutual

/-- The value at the front of a text, and the text after it. -/
def readValue : Nat → List UInt8 → Option (Json × List UInt8)
  | 0, _ => none
  | fuel + 1, t =>
    match expect openBrace t with
    | some t =>
      match expect closeBrace t with
      | some t => some (.object [], t)
      | none => do
        let (m, t) ← readMember fuel t
        let (ms, t) ← readMembers fuel t
        some (.object (m :: ms), t)
    | none =>
      match expect openBracket t with
      | some t =>
        match expect closeBracket t with
        | some t => some (.array [], t)
        | none => do
          let (v, t) ← readValue fuel t
          let (vs, t) ← readElements fuel t
          some (.array (v :: vs), t)
      | none =>
        match expect quote t with
        | some t => do
          let (s, t) ← readString t
          some (.string s, t)
        | none => readLiteral (t.dropWhile isSpace)

/-- The elements after the first one, and the closing bracket. -/
def readElements : Nat → List UInt8 → Option (List Json × List UInt8)
  | 0, _ => none
  | fuel + 1, t =>
    match expect comma t with
    | some t => do
      let (v, t) ← readValue fuel t
      let (vs, t) ← readElements fuel t
      some (v :: vs, t)
    | none => (expect closeBracket t).map fun t ↦ ([], t)

/-- A name, a colon and a value. -/
def readMember : Nat → List UInt8 → Option ((List UInt8 × Json) × List UInt8)
  | 0, _ => none
  | fuel + 1, t => do
    let (k, t) ← readString (← expect quote t)
    let (v, t) ← readValue fuel (← expect colon t)
    some ((k, v), t)

/-- The members after the first one, and the closing brace. -/
def readMembers : Nat → List UInt8 → Option (List (List UInt8 × Json) × List UInt8)
  | 0, _ => none
  | fuel + 1, t =>
    match expect comma t with
    | some t => do
      let (m, t) ← readMember fuel t
      let (ms, t) ← readMembers fuel t
      some (m :: ms, t)
    | none => (expect closeBrace t).map fun t ↦ ([], t)

end

/-- The first value of a text, whatever follows it. -/
def readFirst (t : List UInt8) : Option Json := (readValue (t.length + 1) t).map Prod.fst

/-- The value that a text is. -/
def read (t : List UInt8) : Option Json :=
  match readValue (t.length + 1) t with
  | some (v, t) => if t.dropWhile isSpace = [] then some v else none
  | none => none

/-! ### Writing -/

/-- A string between quotes, as it is. -/
def quoted (s : List UInt8) : List UInt8 := quote :: (s ++ [quote])

mutual

/-- The text of a value, without whitespace and without escapes. -/
def write : Json → List UInt8
  | .null => [110, 117, 108, 108]
  | .bool true => [116, 114, 117, 101]
  | .bool false => [102, 97, 108, 115, 101]
  | .int n => intDigits n
  | .decimal token => token
  | .string s => quoted s
  | .array [] => [openBracket, closeBracket]
  | .array (v :: vs) => openBracket :: (write v ++ writeElements vs)
  | .object [] => [openBrace, closeBrace]
  | .object ((k, v) :: ms) =>
    openBrace :: (quoted k ++ colon :: (write v ++ writeMembers ms))

/-- The elements after the first one, and the closing bracket. -/
def writeElements : List Json → List UInt8
  | [] => [closeBracket]
  | v :: vs => comma :: (write v ++ writeElements vs)

/-- The members after the first one, and the closing brace. -/
def writeMembers : List (List UInt8 × Json) → List UInt8
  | [] => [closeBrace]
  | (k, v) :: ms => comma :: (quoted k ++ colon :: (write v ++ writeMembers ms))

end

/-- What a text spells out: the strings of a value, names included, and its other numbers. -/
inductive Atom where
  | string (s : List UInt8)
  | decimal (token : List UInt8)

mutual

def atoms : Json → List Atom
  | .null | .bool _ | .int _ => []
  | .decimal token => [.decimal token]
  | .string s => [.string s]
  | .array vs => elementAtoms vs
  | .object ms => memberAtoms ms

def elementAtoms : List Json → List Atom
  | [] => []
  | v :: vs => atoms v ++ elementAtoms vs

def memberAtoms : List (List UInt8 × Json) → List Atom
  | [] => []
  | (k, v) :: ms => .string k :: (atoms v ++ memberAtoms ms)

end

/-- A string that is its own JSON text: no quotes, backslashes and control characters. -/
def PlainString (s : List UInt8) : Prop := ∀ c ∈ s, c ≠ quote ∧ c ≠ backslash ∧ 32 ≤ c

instance (s : List UInt8) : Decidable (PlainString s) := List.decidableBAll _ s

/-- All strings are plain. -/
def Plain (atoms : List Atom) : Prop := ∀ s, .string s ∈ atoms → PlainString s

/-- All numbers are integers. -/
def Integral (atoms : List Atom) : Prop := ∀ token, .decimal token ∉ atoms

end Json
end RocketMQ.Base
