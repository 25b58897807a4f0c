/-
This file says how a token is named in messages and token listings: words and
symbols between single quotes, literals and names with what they are.
-/

import Scriptlet.Decimal.FloatStyle
import Scriptlet.Text.Quoted
import Scriptlet.Token.Basic

namespace Scriptlet.Token

/-- Numbers in messages have the fewest digits, no exponent, and no point when whole. -/
def floatStyle : FloatStyle :=
  { exactWhole := false, pointZero := false, positionalOrders := none }

/-- A text between single quotes. -/
def inQuotes (text : String) : String :=
  "'" ++ text ++ "'"

/-- The name of a token in a message. -/
def description : Token → String
  | .int value => "number " ++ inQuotes (toString value.toInt)
  | .float value => "number " ++ inQuotes (floatStyle.text value)
  | .str value => "string " ++ Text.quoted value
  | .bool value => inQuotes (if value then "true" else "false")
  | .keyword word => inQuotes word.spelling
  | .identifier name => "identifier " ++ inQuotes name
  | .symbol mark => inQuotes (String.ofList mark.spelling)
  | .layout .newLine => inQuotes "newline"
  | .layout _ => inQuotes "comment"
  | .endOfInput => "end of input"

end Scriptlet.Token
