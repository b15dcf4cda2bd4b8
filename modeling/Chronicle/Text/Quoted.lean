import Chronicle.Text.Invisible

/-!
# Quoted text inside messages

Messages and pictures of values show a string in quotes, with everything escaped that would
break the line or not show.
-/

namespace Chronicle.Text

def codePoint (c : Char) : String :=
  "\\u\x7b" ++ String.ofList (Nat.toDigits 16 c.toNat) ++ "\x7d"

def quotedChar (c : Char) : String :=
  if c = '"' then "\\\""
  else if c = '\\' then "\\\\"
  else if c = '\n' then "\\n"
  else if c = '\r' then "\\r"
  else if c = '\t' then "\\t"
  else if c.toNat = 0 then "\\0"
  else if isInvisible c then codePoint c
  else c.toString

def quoted (s : String) : String :=
  "\"" ++ String.join (s.toList.map quotedChar) ++ "\""

/-- Whether a list of characters occurs in another one as a stretch without gaps. -/
def occursIn (part : List Char) : List Char → Bool
  | [] => part.isEmpty
  | c :: rest => part.isPrefixOf (c :: rest) || occursIn part rest

/-- Whether a text occurs inside another; the empty text occurs everywhere. -/
def contains (text part : String) : Bool :=
  occursIn part.toList text.toList

end Chronicle.Text
