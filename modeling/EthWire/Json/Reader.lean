import EthWire.Json.Basic
import EthWire.Text.Numeral

/-!
# Reading JSON text

A reader of the usual JSON grammar that also takes `NaN`, `Infinity` and
`-Infinity` as numbers and any escaped surrogate. Of equal keys the last value
counts. Arrays and objects may nest `nestingLimit` deep; text that nests deeper is
refused at the bracket that goes too deep, before anything behind it is looked at.
-/

namespace EthWire.Json

/-- The greatest depth of arrays and objects. -/
def nestingLimit : Nat := 960

inductive SyntaxProblem
  | value
  | propertyName
  | colon
  | comma
  | unterminatedString
  | controlCharacter
  | escape
  | unicodeEscape
  | extraData
  | byteOrderMark
  | longNumeral
deriving DecidableEq, Repr

def SyntaxProblem.message : SyntaxProblem → Text
  | .value => "Expecting value"
  | .propertyName => "Expecting property name enclosed in double quotes"
  | .colon => "Expecting ':' delimiter"
  | .comma => "Expecting ',' delimiter"
  | .unterminatedString => "Unterminated string starting at"
  | .controlCharacter => "Invalid control character at"
  | .escape => "Invalid \\escape"
  | .unicodeEscape => "Invalid \\uXXXX escape"
  | .extraData => "Extra data"
  | .byteOrderMark => "Unexpected byte order mark (a value expected)"
  | .longNumeral => "Integer of too many digits"

/-- Why reading stopped: nesting that is too deep, or a problem in front of `rest`. -/
inductive Stop
  | tooDeep
  | problem (what : SyntaxProblem) (rest : Text)

abbrev Scan (α : Type) := Text → Except Stop (α × Text)

def isSpace (c : CodePoint) : Bool :=
  c.val == 0x20 || c.val == 0x9 || c.val == 0xa || c.val == 0xd

def skipSpace (t : Text) : Text := t.dropWhile isSpace

/-- What follows `word` at the start of a text. -/
def dropWord? : (word : Text) → Text → Option Text
  | [], t => some t
  | _ :: _, [] => none
  | w :: ws, c :: rest => if w = c then dropWord? ws rest else none

/-! ## Strings -/

/-- The value of four hexadecimal digits at the start of a text, which goes on behind
them. -/
def hexUnit? : Text → Option (Nat × Text)
  | a :: b :: c :: d :: e :: rest => do
      let ds ← [a, b, c, d].mapM Text.hexDigit?
      pure (Positional.value 16 ds, e :: rest)
  | _ => none

def isHighSurrogate (n : Nat) : Bool := 0xd800 ≤ n && n ≤ 0xdbff

def isLowSurrogate (n : Nat) : Bool := 0xdc00 ≤ n && n ≤ 0xdfff

/-- The low surrogate escaped at the start of a text. -/
def lowEscape? : Text → Option (Nat × Text)
  | c :: u :: rest =>
      if c.val = 0x5c ∧ u.val = 0x75 then (hexUnit? rest).filter (isLowSurrogate ·.1) else none
  | _ => none

/-- The code point of a `u` escape, `t` starting at the `u`. A high surrogate joins with
an escaped low one right behind it. -/
def unicodeEscape (t : Text) : Except Stop (CodePoint × Text) :=
  match hexUnit? (t.drop 1) with
  | none => .error (.problem .unicodeEscape t)
  | some (high, rest) =>
      match if isHighSurrogate high then lowEscape? rest else none with
      | some (low, after) =>
          .ok (CodePoint.ofNat (0x10000 + (high - 0xd800) * 0x400 + (low - 0xdc00)), after)
      | none => .ok (CodePoint.ofNat high, rest)

/-- The code point that a letter escapes. -/
def shortEscape? (c : CodePoint) : Option CodePoint :=
  if c.val = 0x22 ∨ c.val = 0x5c ∨ c.val = 0x2f then some c
  else if c.val = 0x62 then some 0x8
  else if c.val = 0x66 then some 0xc
  else if c.val = 0x6e then some 0xa
  else if c.val = 0x72 then some 0xd
  else if c.val = 0x74 then some 0x9
  else none

/-- The next code point of a string, or `none` at its closing quote. -/
def stringPoint : Scan (Option CodePoint)
  | [] => .error (.problem .unterminatedString [])
  | c :: rest =>
      if c.val = 0x22 then .ok (none, rest)
      else if c.val = 0x5c then
        match rest with
        | [] => .error (.problem .unterminatedString [])
        | e :: after =>
            if e.val = 0x75 then (unicodeEscape (e :: after)).map fun (p, r) => (some p, r)
            else match shortEscape? e with
              | some p => .ok (some p, after)
              | none => .error (.problem .escape (c :: rest))
      else if c.val < 0x20 then .error (.problem .controlCharacter (c :: rest))
      else .ok (some c, rest)

/-- The rest of a string behind its opening quote. -/
def stringBody : (fuel : Nat) → Scan Text
  | 0, t => .error (.problem .unterminatedString t)
  | fuel + 1, t => do
      let (point, rest) ← stringPoint t
      match point with
      | none => pure ([], rest)
      | some p =>
          let (more, after) ← stringBody fuel rest
          pure (p :: more, after)

/-- A string behind its opening quote. One that does not end is refused at the quote. -/
def string (quote : CodePoint) (t : Text) : Except Stop (Text × Text) :=
  (stringBody (t.length + 1) t).mapError fun
    | .problem .unterminatedString _ => .problem .unterminatedString (quote :: t)
    | stop => stop

/-! ## Numbers -/

/-- The ASCII digits at the start of a text. -/
def takeDigits : Text → List Nat × Text
  | [] => ([], [])
  | c :: rest =>
      match (Text.digit? c).filter (· < 10) with
      | some d => let (ds, after) := takeDigits rest; (d :: ds, after)
      | none => ([], c :: rest)

/-- The digits behind a decimal point, if there is a point with digits. -/
def fraction (t : Text) : Option (List Nat) × Text :=
  match t with
  | c :: rest =>
      if c.val = 0x2e then
        match takeDigits rest with
        | ([], _) => (none, t)
        | (ds, after) => (some ds, after)
      else (none, t)
  | [] => (none, t)

/-- The power of ten behind an `e`, if there is one with digits. -/
def power (t : Text) : Option Int × Text :=
  match t with
  | c :: rest =>
      if c.val = 0x65 ∨ c.val = 0x45 then
        let (negative, unsigned) := Text.splitSign rest
        match takeDigits unsigned with
        | ([], _) => (none, t)
        | (ds, after) =>
            let n : Int := Positional.value 10 ds
            (some (if negative then -n else n), after)
      else (none, t)
  | [] => (none, t)

/-- The digits in front of the point: a zero stands alone. -/
def wholeDigits (t : Text) : List Nat × Text :=
  match t with
  | c :: rest => if c.val = 0x30 then ([0], rest) else takeDigits t
  | [] => ([], [])

def number (t : Text) : Except Stop (Json × Text) :=
  let (negative, unsigned) : Bool × Text :=
    match t with
    | c :: rest => if c.val = 0x2d then (true, rest) else (false, t)
    | [] => (false, [])
  let (whole, afterWhole) := wholeDigits unsigned
  if whole.isEmpty then .error (.problem .value t)
  else
    let (places, afterPlaces) := fraction afterWhole
    let (exponent, rest) := power afterPlaces
    if places.isNone && exponent.isNone then
      if Text.decimalLimit < whole.length then .error (.problem .longNumeral t)
      else
        let n : Int := Positional.value 10 whole
        .ok (.int (if negative then -n else n), rest)
    else
      let ds := whole ++ places.getD []
      .ok (.float (Binary64.ofDecimal negative (Positional.value 10 ds)
        (exponent.getD 0 - (places.getD []).length)), rest)

/-! ## Values -/

/-- The values that are written as a word. -/
def words : List (Text × Json) :=
  [("null", .null), ("true", .bool true), ("false", .bool false), ("NaN", .float (.nan true)),
   ("Infinity", .float (.infinite false)), ("-Infinity", .float (.infinite true))]

def word? (t : Text) : Option (Json × Text) :=
  words.findSome? fun (word, value) => (dropWord? word t).map fun rest => (value, rest)

/-- The elements of an array up to its closing bracket, the first one in front. -/
def elements (value : Scan Json) : (fuel : Nat) → Scan (List Json)
  | 0, t => .error (.problem .value t)
  | fuel + 1, t => do
      let (first, afterFirst) ← value t
      match skipSpace afterFirst with
      | [] => .error (.problem .comma [])
      | c :: rest =>
          if c.val = 0x5d then pure ([first], rest)
          else if c.val = 0x2c then
            let (more, after) ← elements value fuel (skipSpace rest)
            pure (first :: more, after)
          else .error (.problem .comma (c :: rest))

/-- A key with its colon and the blanks around it. -/
def memberKey : Scan Text
  | [] => .error (.problem .propertyName [])
  | c :: rest =>
      if c.val = 0x22 then do
        let (key, afterKey) ← string c rest
        match skipSpace afterKey with
        | [] => .error (.problem .colon [])
        | d :: more =>
            if d.val = 0x3a then pure (key, skipSpace more)
            else .error (.problem .colon (d :: more))
      else .error (.problem .propertyName (c :: rest))

/-- The members of an object up to its closing brace, added to `done`. -/
def members (value : Scan Json) :
    (fuel : Nat) → (done : List (Text × Json)) → Scan (List (Text × Json))
  | 0, _, t => .error (.problem .propertyName t)
  | fuel + 1, done, t => do
      let (key, afterKey) ← memberKey t
      let (first, afterFirst) ← value afterKey
      let done := put key first done
      match skipSpace afterFirst with
      | [] => .error (.problem .comma [])
      | c :: rest =>
          if c.val = 0x7d then pure (done, rest)
          else if c.val = 0x2c then members value fuel done (skipSpace rest)
          else .error (.problem .comma (c :: rest))

/-- The inside of an array, behind its opening bracket. -/
def array (value : Scan Json) : Scan Json
  | t =>
      match skipSpace t with
      | c :: rest =>
          if c.val = 0x5d then .ok (.arr [], rest)
          else (elements value (rest.length + 1) (c :: rest)).map fun (xs, r) => (.arr xs, r)
      | [] => .error (.problem .value [])

/-- The inside of an object, behind its opening brace. -/
def objectBody (value : Scan Json) : Scan Json
  | t =>
      match skipSpace t with
      | c :: rest =>
          if c.val = 0x7d then .ok (.obj [], rest)
          else (members value (rest.length + 1) [] (c :: rest)).map fun (ms, r) => (.obj ms, r)
      | [] => .error (.problem .propertyName [])

/-- A value in which arrays and objects nest at most `levels` deep. -/
def value : (levels : Nat) → Scan Json
  | _, [] => .error (.problem .value [])
  | levels, c :: rest =>
      if c.val = 0x22 then (string c rest).map fun (s, r) => (.str s, r)
      else if c.val = 0x5b then
        match levels with
        | 0 => .error .tooDeep
        | inner + 1 => array (value inner) rest
      else if c.val = 0x7b then
        match levels with
        | 0 => .error .tooDeep
        | inner + 1 => objectBody (value inner) rest
      else match word? (c :: rest) with
        | some found => .ok found
        | none => number (c :: rest)

/-- A whole document: one value with blanks around it. -/
def document (t : Text) : Except Stop Json :=
  match t with
  | c :: _ => if c.val = 0xfeff then .error (.problem .byteOrderMark t) else read t
  | [] => read t
where
  read (t : Text) : Except Stop Json := do
    let (found, rest) ← value nestingLimit (skipSpace t)
    match skipSpace rest with
    | [] => pure found
    | extra => .error (.problem .extraData extra)

/-! ## Reports -/

/-- Why a text is no JSON document. -/
inductive Unreadable
  | tooDeep
  | problem (what : SyntaxProblem) (line column position : Nat)
deriving DecidableEq, Repr

/-- Places a problem in the text it was found in, counting lines and columns from one. -/
def Stop.locate (t : Text) : Stop → Unreadable
  | .tooDeep => .tooDeep
  | .problem what rest =>
      let position := t.length - rest.length
      let read := t.take position
      let lastLine := (read.reverse.takeWhile (·.val != 0xa)).length
      .problem what (read.countP (·.val == 0xa) + 1) (lastLine + 1) position

def read (t : Text) : Except Unreadable Json :=
  (document t).mapError (Stop.locate t)

end EthWire.Json
