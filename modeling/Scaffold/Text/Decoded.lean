/-!
# Text and bytes

The bytes of a text are its UTF-8 ones. Where bytes are read as text, what is not valid is either
replaced by a sign for it or, line by line, refused.
-/

namespace Scaffold.Text

/-- The sign that stands for bytes that spell no character. -/
def replacement : Char := '\ufffd'

/-- A character that has begun: the bits read so far, how many bytes are missing, and the bounds of
the next one. -/
structure Begun where
  bits : Nat
  missing : Nat
  low : Nat := 0x80
  high : Nat := 0xbf

/-- What a byte begins: a character, if it is one by itself or begins none, or the rest to
wait for. -/
def begin (b : Nat) : Char ⊕ Begun :=
  if b < 0x80 then .inl (Char.ofNat b)
  else if b < 0xc2 ∨ 0xf4 < b then .inl replacement
  else if b < 0xe0 then .inr { bits := b % 0x20, missing := 1 }
  else if b < 0xf0 then
    .inr { bits := b % 0x10, missing := 2,
           low := if b = 0xe0 then 0xa0 else 0x80, high := if b = 0xed then 0x9f else 0xbf }
  else
    .inr { bits := b % 8, missing := 3,
           low := if b = 0xf0 then 0x90 else 0x80, high := if b = 0xf4 then 0x8f else 0xbf }

/-- The characters that bytes spell, after those of a character that has begun. As many bytes as
could belong to one character are replaced by one sign. -/
def decodeFrom : Option Begun → List UInt8 → List Char
  | none, [] => []
  | some _, [] => [replacement]
  | begun?, b :: rest =>
    let b := b.toNat
    match begun? with
    | some begun =>
      if begun.low ≤ b ∧ b ≤ begun.high then
        let bits := begun.bits * 0x40 + b % 0x40
        if begun.missing ≤ 1 then Char.ofNat bits :: decodeFrom none rest
        else decodeFrom (some { bits, missing := begun.missing - 1 }) rest
      else
        replacement :: match begin b with
          | .inl c => c :: decodeFrom none rest
          | .inr begun => decodeFrom (some begun) rest
    | none => match begin b with
      | .inl c => c :: decodeFrom none rest
      | .inr begun => decodeFrom (some begun) rest

/-- The bytes of a text. -/
def encoded (text : String) : List UInt8 := text.toUTF8.data.toList

/-- Bytes as they are shown: what is not valid is replaced. -/
def shown (bytes : List UInt8) : String := String.ofList (decodeFrom none bytes)

/-- Bytes without the mark that some programs put before text. -/
def withoutMark (bytes : List UInt8) : List UInt8 :=
  if [0xef, 0xbb, 0xbf].isPrefixOf bytes then bytes.drop 3 else bytes

/-- The text of bytes; what is not valid is replaced. -/
def decoded (bytes : ByteArray) : String :=
  String.ofList (decodeFrom none (withoutMark bytes.toList))

/-- The lines of bytes with the line breaks that end them, where `line` holds the beginning of the
first one in reverse. -/
def byteLines : (line : List UInt8) → List UInt8 → List (List UInt8)
  | line, [] => if line.isEmpty then [] else [line.reverse]
  | line, b :: rest =>
    if b = 10 then (b :: line).reverse :: byteLines [] rest else byteLines (b :: line) rest

/-- The lines of bytes up to the first that is not valid text. -/
def textLines (bytes : ByteArray) : List (List Char) :=
  let lines := (byteLines [] (withoutMark bytes.toList)).map fun line =>
    String.fromUTF8? ⟨line.toArray⟩
  (lines.takeWhile Option.isSome).filterMap fun line => line.map String.toList

end Scaffold.Text
