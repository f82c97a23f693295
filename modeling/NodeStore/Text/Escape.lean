/-!
# Terminal escapes

Text from the stores may carry escapes that color a terminal. What a command shows is text for
any reader, so these escapes are left out of it.
-/

namespace NodeStore.Text

/-- Stands between the bracket and the letter of an escape. -/
def isEscapeParameter (c : Char) : Bool :=
  c == ';' || c == '?' || ('0' ≤ c && c ≤ '9')

/-- Ends an escape. -/
def isEscapeEnd (c : Char) : Bool :=
  ('a' ≤ c && c ≤ 'z') || ('A' ≤ c && c ≤ 'Z')

/-- Leaves out escapes after a beginning of one, which is held reversed until it is known whether
it is one. -/
def plainFrom : (held : List Char) → List Char → List Char
  | held, [] => held.reverse
  | held, c :: cs =>
    if c = '\x1b' then held.reverse ++ plainFrom [c] cs
    else match held with
      | [] => c :: plainFrom [] cs
      | [escape] => if c = '[' then plainFrom [c, escape] cs else escape :: c :: plainFrom [] cs
      | held =>
        if isEscapeParameter c then plainFrom (c :: held) cs
        else if isEscapeEnd c then plainFrom [] cs
        else held.reverse ++ c :: plainFrom [] cs

/-- A text without the escapes in it. -/
def withoutEscapes (s : String) : String :=
  String.ofList (plainFrom [] s.toList)

end NodeStore.Text
