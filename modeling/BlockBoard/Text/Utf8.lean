/-!
# UTF-8

Texts as bytes, and bytes as texts. Bytes that are no text are read with a replacement character in
the place of each longest piece that could still have become a character.

- `utf8`: the bytes of a text.
- `utf8Text`: the text of bytes, whatever they are.
- `utf8Text?`: the text of bytes that are one.
-/

namespace BlockBoard

/-- The bytes of a character. -/
def utf8Char (c : Char) : List UInt8 := String.utf8EncodeChar c

/-- The bytes of a text. -/
def utf8 (s : String) : List UInt8 := s.toList.flatMap utf8Char

/-- The character that stands for bytes that are no text. -/
def replacement : Char := '\uFFFD'

/-- What the bytes at the start of a list are: a character, or a piece that is none, either with the
number of bytes that it takes. -/
structure Utf8Step where
  char? : Option Char
  size : Nat
  deriving DecidableEq, Repr

/-- Whether a byte continues a character. -/
def isContinuation (b : UInt8) : Bool := 0x80 ≤ b && b < 0xC0

/-- The low six bits of a continuation byte. -/
def continuationBits (b : UInt8) : Nat := b.toNat % 64

/-- The least second byte that a first byte admits, and the greatest. They rule out longer forms than
needed, halves of surrogate pairs, and codes beyond the last character. -/
def secondRange (first : UInt8) : UInt8 × UInt8 :=
  if first == 0xE0 then (0xA0, 0xBF)
  else if first == 0xED then (0x80, 0x9F)
  else if first == 0xF0 then (0x90, 0xBF)
  else if first == 0xF4 then (0x80, 0x8F)
  else (0x80, 0xBF)

/-- The first step of decoding a list that starts with `first`. -/
def utf8Step (first : UInt8) (rest : List UInt8) : Utf8Step :=
  if first < 0x80 then ⟨some (Char.ofNat first.toNat), 1⟩
  else if first < 0xC2 || 0xF5 ≤ first then ⟨none, 1⟩
  else match rest with
    | [] => ⟨none, 1⟩
    | second :: rest =>
      let (least, greatest) := secondRange first
      if second < least || greatest < second then ⟨none, 1⟩
      else if first < 0xE0 then
        ⟨some (Char.ofNat ((first.toNat % 32) * 64 + continuationBits second)), 2⟩
      else match rest with
        | [] => ⟨none, 2⟩
        | third :: rest =>
          if !isContinuation third then ⟨none, 2⟩
          else if first < 0xF0 then
            ⟨some (Char.ofNat (((first.toNat % 16) * 64 + continuationBits second) * 64 +
              continuationBits third)), 3⟩
          else match rest with
            | [] => ⟨none, 3⟩
            | fourth :: _ =>
              if !isContinuation fourth then ⟨none, 3⟩
              else
                ⟨some (Char.ofNat ((((first.toNat % 8) * 64 + continuationBits second) * 64 +
                  continuationBits third) * 64 + continuationBits fourth)), 4⟩

/-- The steps of decoding a list, and for each how many bytes are left of an earlier one. -/
def utf8Steps : Nat → List UInt8 → List Utf8Step
  | _, [] => []
  | skip + 1, _ :: r => utf8Steps skip r
  | 0, b :: r => let s := utf8Step b r; s :: utf8Steps (s.size - 1) r

/-- The characters of bytes, each piece that is none replaced. -/
def utf8Chars (bs : List UInt8) : List Char :=
  (utf8Steps 0 bs).map fun s => s.char?.getD replacement

/-- The text of bytes, each piece that is none replaced. -/
def utf8Text (bs : List UInt8) : String := String.ofList (utf8Chars bs)

/-- The text of bytes, if they are one. -/
def utf8Text? (bs : List UInt8) : Option String :=
  ((utf8Steps 0 bs).mapM Utf8Step.char?).map String.ofList

end BlockBoard
