/-
A text in quotes, with escapes for what cannot be shown.

Single quotes are used, and double ones only where the text holds a single quote
and no double one.
-/
import GestureStore.Text.Printable

namespace GestureStore
namespace Text

/-- A code point inside quotes. -/
def escaped (quote : CodePoint) (p : CodePoint) : Text :=
  if p == quote || p.is '\\' then [CodePoint.ofChar '\\', p]
  else if p.is '\n' then Text.of "\\n"
  else if p.is '\r' then Text.of "\\r"
  else if p.is '\t' then Text.of "\\t"
  else if p.isPrintable then [p]
  else if p.val < 0x100 then Text.of "\\x" ++ lowerHex 2 p.val
  else if p.val < 0x10000 then Text.of "\\u" ++ lowerHex 4 p.val
  else Text.of "\\U" ++ lowerHex 8 p.val

/-- The text in quotes. -/
def quoted (t : Text) : Text :=
  let quote : CodePoint :=
    if t.any (·.is '\'') && !t.any (·.is '"') then CodePoint.ofChar '"' else CodePoint.ofChar '\''
  quote :: t.flatMap (escaped quote) ++ [quote]

end Text
end GestureStore
