import NodeStore.Text.Blank
import NodeStore.Text.Utf8

/-!
# Texts as they are handed over

What an operator types or a caller hands over is a list of code points, and some of them may be
surrogates, which stand for no character. Such a text has no bytes. `text` takes any other one as
what it is; a text with surrogates is reported by the first of them and those that follow it.
-/

namespace NodeStore

/-- A code point: a character, or one of the surrogates from U+D800 on. -/
inductive CodePoint where
  | char (c : Char)
  | surrogate (n : Fin 0x800)
deriving DecidableEq, Repr

namespace CodePoint

/-- Stands for no character. -/
def isSurrogate : CodePoint → Bool
  | char _ => false
  | surrogate _ => true

/-- A blank character. -/
def isBlank : CodePoint → Bool
  | char c => Text.isBlank c
  | surrogate _ => false

end CodePoint

/-- Surrogates in a text: `size` of them from position `start` on, beginning with the given one. -/
structure SurrogateFault where
  first : Fin 0x800
  start : Nat
  size : Nat
deriving DecidableEq, Repr

/-- The wording of a fault: one surrogate is shown, of several only the place is told. -/
def SurrogateFault.message (f : SurrogateFault) : String :=
  let place :=
    if f.size = 1 then
      "character '\\u" ++ String.ofList (Text.hexPadded 4 (0xd800 + f.first)) ++
        "' in position " ++ Text.decimal f.start
    else
      "characters in position " ++ Text.decimal f.start ++ "-" ++
        Text.decimal (f.start + f.size - 1)
  "'utf-8' codec can't encode " ++ place ++ ": surrogates not allowed"

/-- A text that may have surrogates. -/
structure RawText where
  points : List CodePoint
deriving DecidableEq, Repr

namespace RawText

/-- A text without surrogates. -/
def ofString (s : String) : RawText :=
  ⟨s.toList.map .char⟩

instance : Coe String RawText := ⟨ofString⟩

/-- The characters of code points that stand from position `pos` on. -/
def charsFrom (pos : Nat) : List CodePoint → Except SurrogateFault (List Char)
  | [] => .ok []
  | .char c :: rest => (charsFrom (pos + 1) rest).map (c :: ·)
  | .surrogate n :: rest => .error ⟨n, pos, 1 + (rest.takeWhile CodePoint.isSurrogate).length⟩

/-- The text, unless it has surrogates. -/
def text (t : RawText) : Except SurrogateFault String :=
  (charsFrom 0 t.points).map String.ofList

/-- The bytes of a text. -/
def encode (t : RawText) : Except SurrogateFault Bytes :=
  t.text.map Utf8.encode

/-- The text without the blanks at its ends. -/
def strip (t : RawText) : RawText :=
  ⟨Text.trimChars CodePoint.isBlank t.points⟩

end RawText

end NodeStore
