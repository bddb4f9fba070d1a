import Gatehouse.Unicode.Category

/-!
# Properties by name

`property?` is the set of characters that a property of Unicode names: a general category, a
script, or one of a few more. Case, spaces, hyphens and underscores in a name do not count.
-/

namespace Gatehouse.Unicode

/-- The general categories by their long names, with the letters of the short ones. A group of
categories has one letter. -/
def categoryNames : List (String × String) := [
  ("letter", "L"), ("casedletter", "LC"), ("uppercaseletter", "Lu"), ("lowercaseletter", "Ll"),
  ("titlecaseletter", "Lt"), ("modifierletter", "Lm"), ("otherletter", "Lo"),
  ("mark", "M"), ("combiningmark", "M"), ("nonspacingmark", "Mn"), ("spacingmark", "Mc"),
  ("enclosingmark", "Me"), ("number", "N"), ("decimalnumber", "Nd"), ("digit", "Nd"),
  ("letternumber", "Nl"), ("othernumber", "No"), ("punctuation", "P"), ("punct", "P"),
  ("connectorpunctuation", "Pc"), ("dashpunctuation", "Pd"), ("openpunctuation", "Ps"),
  ("closepunctuation", "Pe"), ("initialpunctuation", "Pi"), ("finalpunctuation", "Pf"),
  ("otherpunctuation", "Po"), ("symbol", "S"), ("mathsymbol", "Sm"), ("currencysymbol", "Sc"),
  ("modifiersymbol", "Sk"), ("othersymbol", "So"), ("separator", "Z"), ("spaceseparator", "Zs"),
  ("lineseparator", "Zl"), ("paragraphseparator", "Zp"), ("other", "C"), ("control", "Cc"),
  ("cntrl", "Cc"), ("format", "Cf"), ("surrogate", "Cs"), ("privateuse", "Co"),
  ("unassigned", "Cn")]

/-- The set of a category by its letters. -/
def categorySet? : List Char → Option CharSet
  | [a] => if "LMNPSZC".toList.contains a then some (ofCategory fun x _ => x == a) else none
  | ['L', 'C'] => some (ofCategory fun x y => x == 'L' && (y == 'u' || y == 'l' || y == 't'))
  | [a, b] => if categoryRuns.any fun r => r.major == a && r.minor == b then
      some (ofCategory fun x y => x == a && y == b) else none
  | _ => none

/-- The ranges of some scripts. -/
def scripts : List (String × String × List (Nat × Nat)) := [
  ("latin", "latn", [(0x41, 0x5A), (0x61, 0x7A), (0xAA, 0xAA), (0xBA, 0xBA), (0xC0, 0xD6),
    (0xD8, 0xF6), (0xF8, 0x2B8), (0x2E0, 0x2E4), (0x1D00, 0x1D25), (0x1D2C, 0x1D5C),
    (0x1D62, 0x1D65), (0x1D6B, 0x1D77), (0x1D79, 0x1DBE), (0x1E00, 0x1EFF), (0x2071, 0x2071),
    (0x207F, 0x207F), (0x2090, 0x209C), (0x212A, 0x212B), (0x2132, 0x2132), (0x214E, 0x214E),
    (0x2160, 0x2188), (0x2C60, 0x2C7F), (0xA722, 0xA787), (0xA78B, 0xA7CA), (0xA7D0, 0xA7D1),
    (0xA7D3, 0xA7D3), (0xA7D5, 0xA7D9), (0xA7F2, 0xA7FF), (0xAB30, 0xAB5A), (0xAB5C, 0xAB64),
    (0xAB66, 0xAB69), (0xFB00, 0xFB06), (0xFF21, 0xFF3A), (0xFF41, 0xFF5A)]),
  ("greek", "grek", [(0x370, 0x373), (0x375, 0x377), (0x37A, 0x37D), (0x37F, 0x37F),
    (0x384, 0x384), (0x386, 0x386), (0x388, 0x38A), (0x38C, 0x38C), (0x38E, 0x3A1),
    (0x3A3, 0x3E1), (0x3F0, 0x3FF), (0x1D26, 0x1D2A), (0x1D5D, 0x1D61), (0x1D66, 0x1D6A),
    (0x1DBF, 0x1DBF), (0x1F00, 0x1F15), (0x1F18, 0x1F1D), (0x1F20, 0x1F45), (0x1F48, 0x1F4D),
    (0x1F50, 0x1F57), (0x1F59, 0x1F59), (0x1F5B, 0x1F5B), (0x1F5D, 0x1F5D), (0x1F5F, 0x1F7D),
    (0x1F80, 0x1FB4), (0x1FB6, 0x1FC4), (0x1FC6, 0x1FD3), (0x1FD6, 0x1FDB), (0x1FDD, 0x1FEF),
    (0x1FF2, 0x1FF4), (0x1FF6, 0x1FFE), (0x2126, 0x2126), (0xAB65, 0xAB65)]),
  ("cyrillic", "cyrl", [(0x400, 0x484), (0x487, 0x52F), (0x1C80, 0x1C88), (0x1D2B, 0x1D2B),
    (0x1D78, 0x1D78), (0x2DE0, 0x2DFF), (0xA640, 0xA69F), (0xFE2E, 0xFE2F)]),
  ("han", "hani", [(0x2E80, 0x2E99), (0x2E9B, 0x2EF3), (0x2F00, 0x2FD5), (0x3005, 0x3005),
    (0x3007, 0x3007), (0x3021, 0x3029), (0x3038, 0x303B), (0x3400, 0x4DBF), (0x4E00, 0x9FFF),
    (0xF900, 0xFA6D), (0xFA70, 0xFAD9), (0x20000, 0x2A6DF), (0x2A700, 0x2EBE0),
    (0x2F800, 0x2FA1D), (0x30000, 0x323AF)]),
  ("hiragana", "hira", [(0x3041, 0x3096), (0x309D, 0x309F), (0x1B001, 0x1B11F)]),
  ("katakana", "kana", [(0x30A1, 0x30FA), (0x30FD, 0x30FF), (0x31F0, 0x31FF), (0x32D0, 0x32FE),
    (0x3300, 0x3357), (0xFF66, 0xFF6F), (0xFF71, 0xFF9D)]),
  ("hebrew", "hebr", [(0x591, 0x5C7), (0x5D0, 0x5EA), (0x5EF, 0x5F4), (0xFB1D, 0xFB4F)]),
  ("thai", "thai", [(0xE01, 0xE3A), (0xE40, 0xE5B)])]

/-- The set of a script by its name. -/
def scriptSet? (name : String) : Option CharSet :=
  (scripts.find? fun (long, short, _) => name == long || name == short).map fun (_, _, ranges) =>
    .ofList ranges

/-- The set of a category by its long or short name, all in lower case. -/
def categoryByName? (name : String) : Option CharSet :=
  match categoryNames.find? fun (long, short) => name == long || name == short.toLower with
  | some (_, short) => categorySet? short.toList
  | none => none

/-- Letters, with the numbers and symbols that are made of letters. -/
def alphabetic : CharSet :=
  (ofCategory fun a b => a == 'L' || (a == 'N' && b == 'l')).union enclosedLetters

/-- The set of a property by its name, all in lower case. -/
def binarySet? (name : String) : Option CharSet :=
  if name == "any" then some .all
  else if name == "assigned" then some (ofCategory fun a b => !(a == 'C' && b == 'n'))
  else if name == "ascii" then some (.ofList [(0, 0x7F)])
  else if name == "alphabetic" || name == "alpha" then some alphabetic
  else if name == "lowercase" || name == "lower" then
    some (ofCategory fun a b => a == 'L' && b == 'l')
  else if name == "uppercase" || name == "upper" then
    some (ofCategory fun a b => a == 'L' && b == 'u')
  else if name == "whitespace" || name == "space" then some whiteSpace
  else none

/-- A name without what does not count in it. -/
def looseName (name : List Char) : String :=
  let s := (name.filter fun c => !(c == ' ' || c == '-' || c == '_')).map Char.toLower
  String.ofList <| match s with
    | 'i' :: 's' :: rest => if rest == ['c'] then s else rest
    | _ => s

/-- The set of a property, or of a value of the category or the script. -/
def property? (name : List Char) (value : Option (List Char)) : Option CharSet :=
  match value with
  | none =>
    let n := looseName name
    binarySet? n <|> categoryByName? n <|> scriptSet? n
  | some value =>
    let n := looseName name
    if n == "generalcategory" || n == "gc" then categoryByName? (looseName value)
    else if n == "script" || n == "sc" || n == "scriptextensions" || n == "scx" then
      scriptSet? (looseName value)
    else none

end Gatehouse.Unicode
