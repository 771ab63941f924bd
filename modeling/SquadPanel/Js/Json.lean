import SquadPanel.Js.Buffer

/-!
# JSON values
-/

namespace SquadPanel.Js

/-- A JSON value.  A number stands as the text `JSON.stringify` writes for it, an object as
its entries in iteration order. -/
inductive Json
  | null
  | bool (b : Bool)
  | number (text : JsString)
  | string (s : JsString)
  | array (items : List Json)
  | object (entries : List (JsString × Json))

/-- A lowercase hexadecimal digit. -/
def hexDigit (n : Nat) : UInt16 :=
  if n < 10 then UInt16.ofNat (0x30 + n) else UInt16.ofNat (0x61 + (n - 10))

/-- `\uXXXX` -/
def unicodeEscape (u : UInt16) : JsString :=
  let n := u.toNat
  js "\\u" ++ [hexDigit (n / 4096), hexDigit (n / 256 % 16), hexDigit (n / 16 % 16),
    hexDigit (n % 16)]

/-- The characters of a quoted string; `paired` says that the first unit is the second half
of a surrogate pair. -/
def quoteUnits : Bool → JsString → JsString
  | _, [] => []
  | paired, u :: rest =>
    let pairs := isHighSurrogate u && rest.head?.any isLowSurrogate
    let text :=
      if u = 0x22 then js "\\\""
      else if u = 0x5C then js "\\\\"
      else if u = 0x08 then js "\\b"
      else if u = 0x0C then js "\\f"
      else if u = 0x0A then js "\\n"
      else if u = 0x0D then js "\\r"
      else if u = 0x09 then js "\\t"
      else if u < 0x20 || (isHighSurrogate u && !pairs) || (isLowSurrogate u && !paired) then
        unicodeEscape u
      else [u]
    text ++ quoteUnits pairs rest

/-- `JSON.stringify` of a string. -/
def quote (s : JsString) : JsString := js "\"" ++ quoteUnits false s ++ js "\""

example : quote (js "a\"\n\u0001") = js "\"a\\\"\\n\\u0001\"" := by decide +kernel

end SquadPanel.Js
