import Phrasebook.Text.Pattern
import Phrasebook.Text.Blank

/-! # Which style a YAML scalar admits

A text is written plain if nothing in it could be taken for YAML and a reader would take it for a
text; between single quotes if line breaks and spaces do not meet in it; between double quotes
otherwise.

* `Yaml.admitsPlain`, `Yaml.admitsSingle` — what the characters of a text allow.
* `Yaml.readsAsOther` — the texts that a reader takes for a number, a truth value, a date, …
* `Yaml.Style`, `Yaml.styleOf` — the style chosen.
-/

namespace Phrasebook.Yaml

/-! ## Classes of characters -/

/-- The line breaks of YAML 1.1. -/
def isBreak (c : Char) : Bool := ['\n', '\x85', '\u2028', '\u2029'].contains c

/-- What ends a token: a blank, a line break or a null character. -/
def endsToken (c : Char) : Bool := ['\x00', ' ', '\t', '\r'].contains c || isBreak c

/-- The characters of the Unicode planes that may stand unescaped, the last one and the byte order
    mark excepted. -/
def isUnicodeContent (c : Char) : Bool :=
  c != '\uFEFF' && (c.toNat == 0x85 || inRanges [(0xA0, 0xD7FF), (0xE000, 0xFFFD),
    (0x10000, 0x10FFFE)] c.toNat)

def isAscii (c : Char) : Bool := ' ' ≤ c && c ≤ '~'

/-- The characters that only double quotes can express. -/
def isSpecial (c : Char) : Bool := !(c == '\n' || isAscii c || isUnicodeContent c)

/-- The characters that mean something at the start of a token. -/
def isIndicator (c : Char) : Bool := "#,[]\x7b\x7d&*!|>'\"%@`".toList.contains c

/-! ## Analysis -/

/-- Whether somewhere in the text a character of the first class stands right before one of the
    second. -/
def adjacent (first second : Char → Bool) (text : Text) : Bool :=
  (text.zip text.tail).any fun (a, b) => first a && second b

/-- Whether a character `c` of the text is followed by the end of a token. -/
def endsAfter (c : Char) (text : Text) : Bool :=
  adjacent (· == c) endsToken text || text.getLast? == some c

/-- Whether the first character is one of `starts` and the end of a token follows it. -/
def startsAlone (starts : Text) : Text → Bool
  | [] => false
  | [c] => starts.contains c
  | c :: d :: _ => starts.contains c && endsToken d

/-- Whether the text begins like YAML: with a document mark, an indicator, or a sign that stands
    alone. -/
def startsLikeMarkup (text : Text) : Bool :=
  "---".toList.isPrefixOf text || "...".toList.isPrefixOf text || text.head?.any isIndicator
    || startsAlone "?:-".toList text

/-- Whether a part of the text looks like YAML: its start, a colon at the end of a token, or a
    number sign at the start of one. -/
def looksLikeMarkup (text : Text) : Bool :=
  startsLikeMarkup text || endsAfter ':' text || adjacent endsToken (· == '#') text

def isSpaceOrBreak (c : Char) : Bool := c == ' ' || isBreak c

/-- Whether single quotes can express the text. -/
def admitsSingle (text : Text) : Bool :=
  !(adjacent isBreak (· == ' ') text || adjacent (· == ' ') isBreak text || text.any isSpecial)

/-- Whether the characters of the text let it stand without quotes. -/
def admitsPlain (text : Text) : Bool :=
  admitsSingle text && !text.any isBreak && !text.head?.any isSpaceOrBreak
    && !text.getLast?.any isSpaceOrBreak && !looksLikeMarkup text

/-! ## Texts that read as something else -/

open Pattern

def digit : Pattern := one Char.isDigit

def digitOrGap : Pattern := one fun c => c.isDigit || c == '_'

def sign : Pattern := optional (oneOf "-+".toList)

def oneOrTwoDigits : Pattern := seq digit (optional digit)

def sixtieth : Pattern := inOrder [literal [':'], optional (one fun c => '0' ≤ c && c ≤ '5'), digit]

def exponent : Pattern := inOrder [oneOf "eE".toList, oneOf "-+".toList, plus digit]

def truthValue : Pattern :=
  anyText (["yes", "Yes", "YES", "no", "No", "NO", "true", "True", "TRUE", "false", "False",
    "FALSE", "on", "On", "ON", "off", "Off", "OFF"].map String.toList)

/-- Numbers with a point, infinities and the value that is no number. -/
def fraction : Pattern :=
  anyOf [inOrder [sign, digit, star digitOrGap, literal ['.'], star digitOrGap, optional exponent],
    inOrder [literal ['.'], digit, star digitOrGap, optional exponent],
    inOrder [sign, digit, star digitOrGap, plus sixtieth, literal ['.'], star digitOrGap],
    inOrder [sign, literal ['.'], anyText (["inf", "Inf", "INF"].map String.toList)],
    anyText ([".nan", ".NaN", ".NAN"].map String.toList)]

/-- Whole numbers in base two, eight, ten, sixteen and sixty. -/
def whole : Pattern :=
  inOrder [sign, anyOf [inOrder [literal "0b".toList, plus (oneOf "01_".toList)],
    inOrder [literal ['0'], plus (oneOf "01234567_".toList)],
    literal ['0'],
    inOrder [oneOf "123456789".toList, star digitOrGap],
    inOrder [literal "0x".toList, plus (oneOf "0123456789abcdefABCDEF_".toList)],
    inOrder [oneOf "123456789".toList, star digitOrGap, plus sixtieth]]]

def day : Pattern :=
  inOrder [times 4 digit, literal ['-'], times 2 digit, literal ['-'], times 2 digit]

def gapChar : Pattern := oneOf [' ', '\t']

def zone : Pattern :=
  either (literal ['Z'])
    (inOrder [oneOf "-+".toList, oneOrTwoDigits, optional (seq (literal [':']) (times 2 digit))])

def moment : Pattern :=
  inOrder [times 4 digit, literal ['-'], oneOrTwoDigits, literal ['-'], oneOrTwoDigits,
    either (oneOf "Tt".toList) (plus gapChar), oneOrTwoDigits, literal [':'], times 2 digit,
    literal [':'], times 2 digit, optional (seq (literal ['.']) (star digit)),
    optional (seq (star gapChar) zone)]

def otherThanText : Pattern :=
  anyOf [truthValue, fraction, whole, literal "<<".toList,
    anyText (["~", "null", "Null", "NULL"].map String.toList), literal ['='], day, moment]

/-- Whether a reader takes the text, written plain, for something else than a text. -/
def readsAsOther (text : Text) : Bool := text.isEmpty || otherThanText.accepts text

/-! ## The style -/

inductive Style where
  | plain
  | singleQuoted
  | doubleQuoted
deriving DecidableEq, Repr

def styleOf (text : Text) : Style :=
  if admitsPlain text && !readsAsOther text then .plain
  else if admitsSingle text then .singleQuoted
  else .doubleQuoted

end Phrasebook.Yaml
