import EthWire.Bytes
import EthWire.Text.Basic

/-!
# UTF-8

The bytes of a text, and the text of a byte string that is well formed: every code
point in its shortest spelling, and no surrogates.
-/

namespace EthWire

namespace CodePoint

def isSurrogate (c : CodePoint) : Bool := 0xd800 ≤ c.val && c.val < 0xe000

/-- The bytes of one code point. A surrogate has three bytes, which are not read back. -/
def utf8 (c : CodePoint) : Bytes :=
  let n := c.val
  if n < 0x80 then [UInt8.ofNat n]
  else if n < 0x800 then [UInt8.ofNat (0xc0 + n / 0x40), UInt8.ofNat (0x80 + n % 0x40)]
  else if n < 0x10000 then
    [UInt8.ofNat (0xe0 + n / 0x1000), UInt8.ofNat (0x80 + n / 0x40 % 0x40),
      UInt8.ofNat (0x80 + n % 0x40)]
  else
    [UInt8.ofNat (0xf0 + n / 0x40000), UInt8.ofNat (0x80 + n / 0x1000 % 0x40),
      UInt8.ofNat (0x80 + n / 0x40 % 0x40), UInt8.ofNat (0x80 + n % 0x40)]

/-- The code point of a number, unless it is a surrogate or too great. -/
def ofScalar? (n : Nat) : Option CodePoint :=
  if h : n < 0x110000 then
    if 0xd800 ≤ n ∧ n < 0xe000 then none else some ⟨n, h⟩
  else none

end CodePoint

namespace Text

def toUtf8 (t : Text) : Bytes := t.flatMap CodePoint.utf8

/-- The bytes of a text without surrogates. -/
def toUtf8? (t : Text) : Option Bytes :=
  if t.any CodePoint.isSurrogate then none else some t.toUtf8

/-- The six bits of a byte that continues a code point. -/
def continuation? (b : UInt8) : Option Nat :=
  if 0x80 ≤ b.toNat ∧ b.toNat < 0xc0 then some (b.toNat - 0x80) else none

/-- Puts a code point in front of a text, if it is at least `least`. -/
def prependScalar? (least n : Nat) (rest : Option Text) : Option Text :=
  if n < least then none
  else do
    let c ← CodePoint.ofScalar? n
    let t ← rest
    pure (c :: t)

def ofUtf8? : Bytes → Option Text
  | [] => some []
  | a :: rest =>
      let n := a.toNat
      if n < 0x80 then prependScalar? 0 n (ofUtf8? rest)
      else match rest with
        | [] => none
        | b :: rest =>
            match continuation? b with
            | none => none
            | some x =>
                if 0xc0 ≤ n ∧ n < 0xe0 then
                  prependScalar? 0x80 ((n - 0xc0) * 0x40 + x) (ofUtf8? rest)
                else match rest with
                  | [] => none
                  | c :: rest =>
                      match continuation? c with
                      | none => none
                      | some y =>
                          if 0xe0 ≤ n ∧ n < 0xf0 then
                            prependScalar? 0x800 (((n - 0xe0) * 0x40 + x) * 0x40 + y)
                              (ofUtf8? rest)
                          else match rest with
                            | [] => none
                            | d :: rest =>
                                match continuation? d with
                                | none => none
                                | some z =>
                                    if 0xf0 ≤ n ∧ n < 0xf8 then
                                      prependScalar? 0x10000
                                        ((((n - 0xf0) * 0x40 + x) * 0x40 + y) * 0x40 + z)
                                        (ofUtf8? rest)
                                    else none

end Text

end EthWire
