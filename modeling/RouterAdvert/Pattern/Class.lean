import RouterAdvert.Bytes

/-! Sets of bytes for patterns: the named classes and the names of single characters. Only ASCII
bytes belong to a class. -/
namespace RouterAdvert.Pattern

abbrev ByteSet := UInt8 → Bool

namespace ByteSet

def none : ByteSet := fun _ => false

def single (b : UInt8) : ByteSet := fun x => x == b

def union (s t : ByteSet) : ByteSet := fun x => s x || t x

def compl (s : ByteSet) : ByteSet := fun x => !s x

/-- Bytes from `low` to `high` in the order of signed bytes. -/
def range (low high : UInt8) : ByteSet := fun x => low.toInt8 ≤ x.toInt8 && x.toInt8 ≤ high.toInt8

def digit : ByteSet := fun x => 48 ≤ x && x ≤ 57
def upper : ByteSet := fun x => 65 ≤ x && x ≤ 90
def lower : ByteSet := fun x => 97 ≤ x && x ≤ 122
def alpha : ByteSet := union upper lower
def alnum : ByteSet := union alpha digit
def blank : ByteSet := fun x => x == 32 || x == 9
def space : ByteSet := fun x => x == 32 || (9 ≤ x && x ≤ 13)
def cntrl : ByteSet := fun x => x < 32 || x == 127
def graph : ByteSet := fun x => 33 ≤ x && x ≤ 126
def print : ByteSet := fun x => 32 ≤ x && x ≤ 126
def punct : ByteSet := fun x => graph x && !alnum x
def hexDigit : ByteSet := fun x => digit x || (65 ≤ x && x ≤ 70) || (97 ≤ x && x ≤ 102)
def word : ByteSet := fun x => alnum x || x == 95

end ByteSet

def toLower (b : UInt8) : UInt8 := if ByteSet.upper b then b + 32 else b

def classes : List (Bytes × ByteSet) :=
  [("d", .digit), ("w", .word), ("s", .space), ("alnum", .alnum), ("alpha", .alpha),
    ("blank", .blank), ("cntrl", .cntrl), ("digit", .digit), ("graph", .graph), ("lower", .lower),
    ("print", .print), ("punct", .punct), ("space", .space), ("upper", .upper),
    ("xdigit", .hexDigit)]

/-- The class of this name; case does not count. -/
def class? (name : Bytes) : Option ByteSet :=
  (classes.find? (·.1 = name.map toLower)).map (·.2)

/-- The names of the ASCII characters, in order. -/
def characterNames : List String :=
  ["NUL", "SOH", "STX", "ETX", "EOT", "ENQ", "ACK", "alert", "backspace", "tab", "newline",
    "vertical-tab", "form-feed", "carriage-return", "SO", "SI", "DLE", "DC1", "DC2", "DC3", "DC4",
    "NAK", "SYN", "ETB", "CAN", "EM", "SUB", "ESC", "IS4", "IS3", "IS2", "IS1", "space",
    "exclamation-mark", "quotation-mark", "number-sign", "dollar-sign", "percent-sign",
    "ampersand", "apostrophe", "left-parenthesis", "right-parenthesis", "asterisk", "plus-sign",
    "comma", "hyphen", "period", "slash", "zero", "one", "two", "three", "four", "five", "six",
    "seven", "eight", "nine", "colon", "semicolon", "less-than-sign", "equals-sign",
    "greater-than-sign", "question-mark", "commercial-at", "A", "B", "C", "D", "E", "F", "G", "H",
    "I", "J", "K", "L", "M", "N", "O", "P", "Q", "R", "S", "T", "U", "V", "W", "X", "Y", "Z",
    "left-square-bracket", "backslash", "right-square-bracket", "circumflex", "underscore",
    "grave-accent", "a", "b", "c", "d", "e", "f", "g", "h", "i", "j", "k", "l", "m", "n", "o", "p",
    "q", "r", "s", "t", "u", "v", "w", "x", "y", "z", "left-curly-bracket", "vertical-line",
    "right-curly-bracket", "tilde", "DEL"]

def character? (name : Bytes) : Option UInt8 :=
  (characterNames.findIdx? fun s => Bytes.ofString s = name).map (·.toUInt8)

end RouterAdvert.Pattern
