import OpcodeTable.Text.Decimal

/-!
# Tokens of JSON texts

A JSON text is a list of tokens with blanks between them. The blanks are space, tab, line feed and
carriage return. A scan reads one character at a time; a number or a word ends where a blank, a mark or
a quote begins.
-/

namespace OpcodeTable.Json

/-- A token of a JSON text, with numbers and texts as values have them. -/
inductive Token where
  | openArray | closeArray | openObject | closeObject | comma | colon
  | null
  | bool (value : Bool)
  | natural (value : Nat)
  | number (literal : List Char)
  | text (value : Option String)
deriving DecidableEq, Repr

/-- A unit of a text: a character that stands for itself, or the number of an escape. -/
inductive TextUnit where
  | char (value : Char)
  | code (value : Nat)
deriving DecidableEq, Repr

/-- The number is the first half of a surrogate pair. -/
def isHighSurrogate (code : Nat) : Bool :=
  0xD800 ≤ code && code ≤ 0xDBFF

/-- The number is the second half of a surrogate pair. -/
def isLowSurrogate (code : Nat) : Bool :=
  0xDC00 ≤ code && code ≤ 0xDFFF

/-- The characters of text units, behind those already found, the last of which comes first. Nothing
if half of a surrogate pair stands alone. -/
def unitChars? (found : List Char) : List TextUnit → Option (List Char)
  | [] => some found.reverse
  | .char c :: rest => unitChars? (c :: found) rest
  | .code high :: .code low :: rest =>
      if isHighSurrogate high then
        if isLowSurrogate low then
          unitChars? (Char.ofNat (0x10000 + (high - 0xD800) * 0x400 + (low - 0xDC00)) :: found) rest
        else
          none
      else if isLowSurrogate high then
        none
      else
        unitChars? (Char.ofNat high :: found) (.code low :: rest)
  | .code code :: rest =>
      if isHighSurrogate code || isLowSurrogate code then
        none
      else
        unitChars? (Char.ofNat code :: found) rest

/-- The character that a letter behind a backslash stands for. -/
def shortEscape? : Char → Option Char
  | '"' => some '"'
  | '\\' => some '\\'
  | '/' => some '/'
  | 'b' => some '\x08'
  | 'f' => some '\x0c'
  | 'n' => some '\n'
  | 'r' => some '\r'
  | 't' => some '\t'
  | _ => none

/-- The value of a hexadecimal digit in either letter case. -/
def escapeDigit? (c : Char) : Option Nat :=
  if '0' ≤ c ∧ c ≤ '9' then
    some (c.toNat - 48)
  else if 'A' ≤ c ∧ c ≤ 'F' then
    some (c.toNat - 55)
  else if 'a' ≤ c ∧ c ≤ 'f' then
    some (c.toNat - 87)
  else
    none

/-- The characters are a fraction: a point and digits. Gives what follows it. -/
def skipFraction? : List Char → Option (List Char)
  | '.' :: rest =>
      if (rest.takeWhile Char.isDigit).isEmpty then none else some (rest.dropWhile Char.isDigit)
  | rest => some rest

/-- The characters are an exponent and nothing else, or there are none. -/
def isExponent : List Char → Bool
  | [] => true
  | mark :: rest =>
      let digits :=
        match rest with
        | '+' :: digits => digits
        | '-' :: digits => digits
        | digits => digits
      (mark == 'e' || mark == 'E') && !digits.isEmpty && digits.all Char.isDigit

/-- The digits can stand before a fraction: no zero leads other digits. -/
def isInteger (digits : List Char) : Bool :=
  !digits.isEmpty && (digits.head? != some '0' || digits.length == 1)

def readNumber? (chars : List Char) : Option Token :=
  let unsigned :=
    match chars with
    | '-' :: rest => rest
    | rest => rest
  let digits := unsigned.takeWhile Char.isDigit
  if isInteger digits then
    match skipFraction? (unsigned.dropWhile Char.isDigit) with
    | none => none
    | some exponent =>
        if isExponent exponent then
          if chars = digits then some (.natural (Text.decimalValue digits)) else some (.number chars)
        else
          none
  else
    none

/-- Read a word or a number. -/
def readBare? (chars : List Char) : Option Token :=
  match String.ofList chars with
  | "null" => some .null
  | "true" => some (.bool true)
  | "false" => some (.bool false)
  | _ => readNumber? chars

def mark? : Char → Option Token
  | '[' => some .openArray
  | ']' => some .closeArray
  | '\x7b' => some .openObject
  | '\x7d' => some .closeObject
  | ',' => some .comma
  | ':' => some .colon
  | _ => none

/-- The character may stand between tokens. -/
def isJsonBlank (c : Char) : Bool :=
  c == ' ' || c == '\t' || c == '\n' || c == '\r'

/-- Where a scan is. Characters and units read so far are kept with the last one first, and an escape by
number has the number of digits that are missing. -/
inductive ScanMode where
  | between
  | bare (chars : List Char)
  | quoted (units : List TextUnit)
  | escaped (units : List TextUnit)
  | numbered (units : List TextUnit) (value missing : Nat)
deriving DecidableEq, Repr

/-- The state of a scan: the tokens so far, with the last one first, and where the scan is. -/
structure TokenScan where
  tokens : List Token := []
  mode : ScanMode := .between
deriving DecidableEq, Repr

namespace TokenScan

/-- Scan a character between tokens. -/
def start (tokens : List Token) (c : Char) : TokenScan :=
  if isJsonBlank c then
    ⟨tokens, .between⟩
  else if c = '"' then
    ⟨tokens, .quoted []⟩
  else
    match mark? c with
    | some mark => ⟨mark :: tokens, .between⟩
    | none => ⟨tokens, .bare [c]⟩

/-- The character ends a word or a number. -/
def endsBare (c : Char) : Bool :=
  isJsonBlank c || c == '"' || (mark? c).isSome

/-- Scan one character. -/
def step (scan : TokenScan) (c : Char) : Option TokenScan :=
  match scan.mode with
  | .between => some (start scan.tokens c)
  | .bare chars =>
      if endsBare c then
        (readBare? chars.reverse).map fun token => start (token :: scan.tokens) c
      else
        some { scan with mode := .bare (c :: chars) }
  | .quoted units =>
      if c = '"' then
        let value := (unitChars? [] units.reverse).map String.ofList
        some ⟨.text value :: scan.tokens, .between⟩
      else if c = '\\' then
        some { scan with mode := .escaped units }
      else if c.toNat < 0x20 then
        none
      else
        some { scan with mode := .quoted (.char c :: units) }
  | .escaped units =>
      if c = 'u' then
        some { scan with mode := .numbered units 0 4 }
      else
        (shortEscape? c).map fun short => { scan with mode := .quoted (.char short :: units) }
  | .numbered units value missing =>
      (escapeDigit? c).map fun digit =>
        let value := 16 * value + digit
        if missing ≤ 1 then
          { scan with mode := .quoted (.code value :: units) }
        else
          { scan with mode := .numbered units value (missing - 1) }

/-- The tokens at the end of the text. -/
def finish (scan : TokenScan) : Option (List Token) :=
  match scan.mode with
  | .between => some scan.tokens.reverse
  | .bare chars => (readBare? chars.reverse).map fun token => (token :: scan.tokens).reverse
  | _ => none

end TokenScan

/-- The tokens of a JSON text. -/
def tokens? (text : List Char) : Option (List Token) :=
  (text.foldlM TokenScan.step {}).bind TokenScan.finish

end OpcodeTable.Json
